import Erps.Ring.Table

/-!
# The table, inverted

`effect` answers what a request does. `Row` is the same table read the other way: all that a row can
be, with the requests and the states that lead to it. What holds of every row is a case analysis over
`Row`, one case for each kind of row.
-/

set_option autoImplicit false

namespace Erps

namespace Ring

variable {τ : Type}

/-! ## The rows that share a body -/

section bodies

variable (r : Ring τ) (request : RapsRequest) (p : PortId) (ports : PortEffect) (next : RingState)

@[simp] theorem switchEffect_ports : (r.switchEffect request p next).ports = .only p := rfl
@[simp] theorem switchEffect_tx :
    (r.switchEffect request p next).tx = .start request (r.dnfIf p) := rfl
@[simp] theorem switchEffect_next : (r.switchEffect request p next).next = next := rfl
@[simp] theorem switchEffect_wtr : (r.switchEffect request p next).wtr =
    if r.state = .pending then r.ownerStop else .keep := rfl
@[simp] theorem switchEffect_wtb : (r.switchEffect request p next).wtb =
    if r.state = .pending then r.ownerStop else .keep := rfl

@[simp] theorem withdraw_ports : (r.withdraw ports next).ports = ports := rfl
@[simp] theorem withdraw_tx : (r.withdraw ports next).tx = .stop := rfl
@[simp] theorem withdraw_next : (r.withdraw ports next).next = next := rfl
@[simp] theorem withdraw_wtr : (r.withdraw ports next).wtr =
    if r.state = .pending then r.ownerStop else .keep := rfl
@[simp] theorem withdraw_wtb : (r.withdraw ports next).wtb =
    if r.state = .pending then r.ownerStop else .keep := rfl

end bodies

/-! ## Every row -/

/-- The requests that a state has no answer to, or not always one. -/
def stays (state : RingState) : RingRequest → Bool
  | .fs | .rapsNrRb => false
  | .sf | .rapsFs => decide (state = .forcedSwitch)
  | .ms | .rapsMs => decide (state ≠ .idle) && decide (state ≠ .pending)
  | .rapsSf => decide (state = .init) || decide (state = .protection) ||
      decide (state = .forcedSwitch)
  | .clearSf => decide (state ≠ .protection)
  | .clear => decide (state = .init) || decide (state = .idle) || decide (state = .protection)
  | .wtrExpires | .wtbExpires => decide (state ≠ .pending)
  | .rapsNr => decide (state = .idle) || decide (state = .pending)
  | .invalid | .wtrRunning | .wtbRunning => true

/-- The requests that end PENDING at the RPL owner, with what their rows do to the two timers: an
expired one is left to `ring_timer`. -/
inductive Ends : RingRequest → TimerEffect → TimerEffect → Prop
  | clear : Ends .clear .stop .stop
  | wtr : Ends .wtrExpires .keep .stop
  | wtb : Ends .wtbExpires .stop .keep

theorem Ends.request {req : RingRequest} {wtr wtb : TimerEffect} (h : Ends req wtr wtb) :
    req = .clear ∨ req = .wtrExpires ∨ req = .wtbExpires := by
  cases h with
  | clear => exact .inl rfl
  | wtr => exact .inr (.inl rfl)
  | wtb => exact .inr (.inr rfl)

/-- **Every row there is**, by the request that takes it, where it is taken, and what it does. -/
inductive Row (r : Ring τ) (port : Option PortId) (remote : Option NodeId) :
    RingRequest → Effect → Prop
  | stay {req : RingRequest} (hs : stays r.state req = true) : Row r port remote req r.stay
  /-- rows 03, 17, 31 and 59 -/
  | fs (hs : r.state ≠ .forcedSwitch) :
      Row r port remote .fs (r.switchEffect .fs (named port) .forcedSwitch)
  /-- row 45 -/
  | fsAgain (hs : r.state = .forcedSwitch) :
      Row r port remote .fs ⟨.add (named port), .start .fs 0, .forcedSwitch, .keep, .keep, .keep⟩
  /-- rows 05, 19, 33 and 61 -/
  | sf (hs : r.state ≠ .forcedSwitch) :
      Row r port remote .sf (r.switchEffect .sf (named port) .protection)
  /-- rows 09 and 65 -/
  | ms (hs : r.state = .idle ∨ r.state = .pending) :
      Row r port remote .ms (r.switchEffect .ms (named port) .manualSwitch)
  /-- rows 04, 18, 32 and 60 -/
  | rapsFs (hs : r.state ≠ .forcedSwitch) :
      Row r port remote .rapsFs (r.withdraw .openAll .forcedSwitch)
  /-- rows 07 and 63 -/
  | rapsSf (hs : r.state = .idle ∨ r.state = .pending) :
      Row r port remote .rapsSf (r.withdraw .openNonfailed .protection)
  /-- row 35 -/
  | rapsSfManual (hs : r.state = .manualSwitch) :
      Row r port remote .rapsSf (r.withdraw .openNonfailed .manualSwitch)
  /-- rows 08 and 64 -/
  | rapsMs (hs : r.state = .idle ∨ r.state = .pending) :
      Row r port remote .rapsMs (r.withdraw .openNonfailed .manualSwitch)
  /-- rows 30, 36 and 44, while a port is blocked -/
  | announce {req : RingRequest} (hreq : req = .clear ∧
        (r.state = .manualSwitch ∨ r.state = .forcedSwitch) ∨
        req = .rapsMs ∧ r.state = .manualSwitch) (hb : r.anyBlocked = true) :
      Row r port remote req r.announceEffect
  /-- rows 30 and 44, while no port is -/
  | lapse (hs : r.state = .manualSwitch ∨ r.state = .forcedSwitch) :
      Row r port remote .clear ⟨.keep, .keep, .pending, .keep, .keep, .keep⟩
  /-- row 20 -/
  | clearSf (hs : r.state = .protection) :
      Row r port remote .clearSf ⟨.keep, .start .nr 0, .pending, .start, r.ownerStart, .keep⟩
  /-- rows 58, 66 and 68 at the RPL owner: the block goes back to the RPL -/
  | revert {req : RingRequest} {wtr wtb : TimerEffect} (hs : r.state = .pending)
      (hown : r.cfg.isRplOwner = true) (hreq : Ends req wtr wtb) :
      Row r port remote req
        ⟨.only r.rpl, .start .nr (rapsFlagRb ||| r.dnfIf r.rpl), .idle, .keep, wtr, wtb⟩
  /-- rows 58, 66 and 68 elsewhere -/
  | pass {req : RingRequest} (hs : r.state = .pending) (hown : r.cfg.isRplOwner = false)
      {wtr wtb : TimerEffect} (hreq : Ends req wtr wtb) :
      Row r port remote req ⟨.keep, .keep, .idle, .keep, .keep, .keep⟩
  /-- row 14 -/
  | rbIdle (hs : r.state = .idle) :
      Row r port remote .rapsNrRb ⟨.release (ringOtherPort r.cfg.rplPort),
        if r.cfg.isRplOwner then .keep else .stop, .idle, .keep, .keep, .keep⟩
  /-- row 70 at the RPL neighbour -/
  | rbNeighbour (hs : r.state = .pending) (hnb : r.cfg.isRplNeighbour = true) :
      Row r port remote .rapsNrRb ⟨.only r.rpl, .stop, .idle, .keep, r.ownerStop, r.ownerStop⟩
  /-- row 70 at the RPL owner -/
  | rbOwner (hs : r.state = .pending) (hnb : r.cfg.isRplNeighbour = false)
      (hown : r.cfg.isRplOwner = true) :
      Row r port remote .rapsNrRb ⟨.keep, .keep, .idle, .keep, .stop, .stop⟩
  /-- row 70 elsewhere -/
  | rbPlain (hs : r.state = .pending) (hnb : r.cfg.isRplNeighbour = false)
      (hown : r.cfg.isRplOwner = false) :
      Row r port remote .rapsNrRb ⟨.openAll, .stop, .idle, .keep, .keep, .keep⟩
  /-- rows 28, 42 and 56 -/
  | rbEnds (hidle : r.state ≠ .idle) (hpending : r.state ≠ .pending) :
      Row r port remote .rapsNrRb ⟨.keep, .keep, .pending, .keep, .keep, .keep⟩
  /-- row 15, at a node of a lower id -/
  | nrIdle (hs : r.state = .idle)
      (hplain : r.cfg.isRplOwner = false ∧ r.cfg.isRplNeighbour = false)
      (hbelow : r.isBelow remote = true) :
      Row r port remote .rapsNr ⟨.openNonfailed, .stop, .idle, .keep, .keep, .keep⟩
  /-- row 71, at a node of a lower id -/
  | nrPending (hs : r.state = .pending) (hbelow : r.isBelow remote = true) :
      Row r port remote .rapsNr ⟨.openNonfailed, .stop, .pending, .keep, .keep, .keep⟩
  /-- row 29 -/
  | nrProtection (hs : r.state = .protection) :
      Row r port remote .rapsNr ⟨.keep, .keep, .pending, .keep, r.ownerStart, .keep⟩
  /-- rows 43 and 57 -/
  | nrEnds (hs : r.state = .init ∨ r.state = .manualSwitch ∨ r.state = .forcedSwitch) :
      Row r port remote .rapsNr ⟨.keep, .keep, .pending, .keep, .keep, r.ownerStart⟩

/-- Rows 58, 66 and 68, at the RPL owner and elsewhere. -/
theorem revert_row {r : Ring τ} (hs : r.state = .pending) {req : RingRequest} {wtr wtb : TimerEffect}
    (hreq : Ends req wtr wtb) (port : Option PortId) (remote : Option NodeId) :
    Row r port remote req (r.revertEffect wtr wtb) := by
  unfold revertEffect
  split
  · rename_i hown
    exact .revert hs hown hreq
  · rename_i hown
    exact .pass hs (by simpa using hown) hreq

/-- **The table has no other rows.** -/
theorem row (r : Ring τ) (req : RingRequest) (port : Option PortId) (remote : Option NodeId) :
    Row r port remote req (r.effect req port remote) := by
  cases req with
  | fs =>
    unfold effect
    simp only
    split
    · rename_i hs
      exact .fsAgain hs
    · rename_i hs
      exact .fs hs
  | sf =>
    unfold effect
    simp only
    split
    · rename_i hs
      exact .stay (by simp [stays, hs])
    · rename_i hs
      exact .sf hs
  | rapsFs =>
    unfold effect
    simp only
    split
    · rename_i hs
      exact .stay (by simp [stays, hs])
    · rename_i hs
      exact .rapsFs hs
  | ms =>
    cases hs : r.state <;> simp only [effect, hs]
    case idle => exact .ms (.inl hs)
    case pending => exact .ms (.inr hs)
    all_goals exact .stay (by simp [stays, hs])
  | rapsSf =>
    cases hs : r.state <;> simp only [effect, hs]
    case idle => exact .rapsSf (.inl hs)
    case pending => exact .rapsSf (.inr hs)
    case manualSwitch => exact .rapsSfManual hs
    all_goals exact .stay (by simp [stays, hs])
  | rapsMs =>
    cases hs : r.state <;> simp only [effect, hs]
    case idle => exact .rapsMs (.inl hs)
    case pending => exact .rapsMs (.inr hs)
    case manualSwitch =>
      split
      · rename_i hb
        exact .announce (.inr ⟨rfl, hs⟩) hb
      · exact .stay (by simp [stays, hs])
    all_goals exact .stay (by simp [stays, hs])
  | clearSf =>
    cases hs : r.state <;> simp only [effect, hs]
    case protection => exact .clearSf hs
    all_goals exact .stay (by simp [stays, hs])
  | clear =>
    cases hs : r.state <;> simp only [effect, hs]
    case manualSwitch | forcedSwitch =>
      split
      · rename_i hb
        exact .announce (.inl ⟨rfl, by simp [hs]⟩) hb
      · exact .lapse (by simp [hs])
    case pending => exact revert_row hs .clear port remote
    all_goals exact .stay (by simp [stays, hs])
  | wtrExpires =>
    unfold effect
    simp only
    split
    · rename_i hs
      exact revert_row hs .wtr port remote
    · rename_i hs
      exact .stay (by simp [stays, hs])
  | wtbExpires =>
    unfold effect
    simp only
    split
    · rename_i hs
      exact revert_row hs .wtb port remote
    · rename_i hs
      exact .stay (by simp [stays, hs])
  | rapsNrRb =>
    cases hs : r.state <;> simp only [effect, hs]
    case idle => exact .rbIdle hs
    case pending =>
      split
      · rename_i hnb
        exact .rbNeighbour hs hnb
      · rename_i hnb
        split
        · rename_i hown
          exact .rbOwner hs (by simpa using hnb) hown
        · rename_i hown
          exact .rbPlain hs (by simpa using hnb) (by simpa using hown)
    all_goals exact .rbEnds (by simp [hs]) (by simp [hs])
  | rapsNr =>
    cases hs : r.state <;> simp only [effect, hs]
    case idle =>
      split
      · rename_i h
        simp only [Bool.and_eq_true, Bool.not_eq_true'] at h
        exact .nrIdle hs h.1 h.2
      · exact .stay (by simp [stays, hs])
    case pending =>
      split
      · rename_i hb
        exact .nrPending hs hb
      · exact .stay (by simp [stays, hs])
    case protection => exact .nrProtection hs
    all_goals exact .nrEnds (by simp [hs])
  | invalid | wtrRunning | wtbRunning => exact .stay rfl

/-! ## The timers of the RPL owner -/

/-- What a row that ends in `next` does to the timer that `expiry` belongs to: start it on the way
into PENDING, stop it, or leave it. A row that leaves PENDING leaves no timer running, unless it is
the one of its own expiry. -/
inductive TimerRow (r : Ring τ) (req : RingRequest) (next : RingState) (expiry : RingRequest) :
    TimerEffect → Prop
  | start (hrole : r.cfg.isRplOwner = true ∧ r.cfg.isRevertive = true) (hnext : next = .pending) :
      TimerRow r req next expiry .start
  | stop : TimerRow r req next expiry .stop
  | keep (h : r.state = .pending → r.cfg.isRplOwner = true → next = .pending ∨ req = expiry) :
      TimerRow r req next expiry .keep

namespace TimerRow

variable {r : Ring τ} {req : RingRequest} {next : RingState} {expiry : RingRequest}

/-- A timer that runs after the row runs at a revertive RPL owner in PENDING, if it did so before. -/
theorem armed {t : TimerEffect} (h : TimerRow r req next expiry t) {now : τ} {timer : Timer τ}
    (hact : (t.apply now timer).active = true) (hne : req ≠ expiry)
    (harmed : timer.active = true →
      (r.cfg.isRplOwner = true ∧ r.cfg.isRevertive = true) ∧ r.state = .pending) :
    (r.cfg.isRplOwner = true ∧ r.cfg.isRevertive = true) ∧ next = .pending := by
  cases h with
  | start hrole hnext => exact ⟨hrole, hnext⟩
  | stop => cases hact
  | keep h =>
    obtain ⟨hrole, hs⟩ := harmed hact
    rcases h hs hrole.1 with hnext | hreq
    · exact ⟨hrole, hnext⟩
    · exact absurd hreq hne

theorem of_ne (hs : r.state ≠ .pending) : TimerRow r req next expiry .keep :=
  .keep fun h => absurd h hs

theorem ownerStart : TimerRow r req .pending expiry r.ownerStart := by
  unfold Ring.ownerStart
  split
  · rename_i h
    exact .start (Bool.and_eq_true _ _ |>.mp h) rfl
  · exact .keep fun _ _ => .inl rfl

theorem ownerStop : TimerRow r req next expiry r.ownerStop := by
  unfold Ring.ownerStop
  split
  · exact .stop
  · rename_i h
    exact .keep fun _ hown => absurd hown h

/-- The rows that leave any state. -/
theorem leave : TimerRow r req next expiry (if r.state = .pending then r.ownerStop else .keep) := by
  split
  · exact ownerStop
  · rename_i hs
    exact of_ne hs

end TimerRow

theorem timerRow (r : Ring τ) (req : RingRequest) (port : Option PortId) (remote : Option NodeId) :
    TimerRow r req (r.effect req port remote).next .wtrExpires (r.effect req port remote).wtr ∧
      TimerRow r req (r.effect req port remote).next .wtbExpires (r.effect req port remote).wtb := by
  have hrow := r.row req port remote
  generalize r.effect req port remote = e at hrow ⊢
  cases hrow with
  | stay => exact ⟨.keep fun hs _ => .inl hs, .keep fun hs _ => .inl hs⟩
  | fs | sf | ms | rapsFs | rapsSf | rapsSfManual | rapsMs => exact ⟨.leave, .leave⟩
  | announce => exact ⟨.keep fun _ _ => .inl rfl, .ownerStart⟩
  | clearSf | nrProtection => exact ⟨.ownerStart, .keep fun _ _ => .inl rfl⟩
  | nrEnds => exact ⟨.keep fun _ _ => .inl rfl, .ownerStart⟩
  | lapse | rbEnds | nrPending =>
    exact ⟨.keep fun _ _ => .inl rfl, .keep fun _ _ => .inl rfl⟩
  | revert _ _ hreq =>
    cases hreq with
    | clear => exact ⟨.stop, .stop⟩
    | wtr => exact ⟨.keep fun _ _ => .inr rfl, .stop⟩
    | wtb => exact ⟨.stop, .keep fun _ _ => .inr rfl⟩
  | pass _ hown | rbPlain _ _ hown =>
    exact ⟨.keep fun _ h => absurd h (by simp [hown]), .keep fun _ h => absurd h (by simp [hown])⟩
  | rbNeighbour => exact ⟨.ownerStop, .ownerStop⟩
  | rbOwner => exact ⟨.stop, .stop⟩
  | fsAgain hs | rbIdle hs | nrIdle hs => exact ⟨.of_ne (by simp [hs]), .of_ne (by simp [hs])⟩

/-- A timer is started at a revertive RPL owner only. -/
theorem effect_wtr_start {r : Ring τ} {req : RingRequest} {port : Option PortId}
    {remote : Option NodeId} (h : (r.effect req port remote).wtr = .start) :
    r.cfg.isRplOwner = true := by
  have htimer := (r.timerRow req port remote).1
  rw [h] at htimer
  cases htimer with
  | start hrole _ => exact hrole.1

end Ring

end Erps
