import Erps.Ring.Fsm

/-!
# Table 10-2 as data

The 71 rows say their effect in C. Here each is *named*: what happens to the two blocking flags, to
the transmission, to the timers, and which state comes next. `effect` is the table read by columns,
one request at a time, so the rows that do the same in several states are one line; the proofs about
the machine are case splits over it and never unfold a row again.

`fsmRow_eq_apply` is the connection: outside INIT every row is the application of its effect, as an
equation between whole rings. `fsmInit_eq_apply` says the same of row 01.
-/

set_option autoImplicit false

namespace Erps

/-- What a row does to the blocking flags. -/
inductive PortEffect
  | keep
  /-- block this port and open the other -/
  | only (p : PortId)
  /-- block this port as well -/
  | add (p : PortId)
  /-- open this port as well -/
  | release (p : PortId)
  | openAll
  | openNonfailed
  deriving DecidableEq, Repr

/-- What a row does to the transmission. -/
inductive TxEffect
  | keep
  | start (request : RapsRequest) (flags : UInt8)
  | stop
  deriving DecidableEq, Repr

inductive TimerEffect
  | keep
  | start
  | stop
  deriving DecidableEq, Repr

structure Effect where
  ports : PortEffect
  tx : TxEffect
  next : RingState
  guard : TimerEffect := .keep
  wtr : TimerEffect := .keep
  wtb : TimerEffect := .keep
  deriving DecidableEq, Repr

/-- The blocking flag of `q` after the effect. -/
def PortEffect.blocked {τ : Type} (r : Ring τ) (q : PortId) : PortEffect → Bool
  | .keep => (r.port q).isBlocked
  | .only p => decide (q = p)
  | .add p => decide (q = p) || (r.port q).isBlocked
  | .release p => !decide (q = p) && (r.port q).isBlocked
  | .openAll => false
  | .openNonfailed => (r.port q).isFailed && (r.port q).isBlocked

def TxEffect.apply (tx : Transmission) : TxEffect → Transmission
  | .keep => tx
  | .start request flags => tx.start request flags
  | .stop => { tx with isSendingRaps := false }

def TimerEffect.apply {τ : Type} (now : τ) (t : Timer τ) : TimerEffect → Timer τ
  | .keep => t
  | .start => { active := true, activeSince := now }
  | .stop => { t with active := false }

/-- The ring after an effect. -/
def Effect.apply {τ : Type} (e : Effect) (now : τ) (r : Ring τ) : Ring τ :=
  { r with
    port0 := { r.port0 with isBlocked := e.ports.blocked r .port0 }
    port1 := { r.port1 with isBlocked := e.ports.blocked r .port1 }
    timers :=
      { guard := e.guard.apply now r.timers.guard
        wtr := e.wtr.apply now r.timers.wtr
        wtb := e.wtb.apply now r.timers.wtb }
    state := e.next
    tx := e.tx.apply r.tx }

namespace Ring

variable {τ : Type}

/-- The named port of a request that carries one. -/
def named (port : Option PortId) : PortId := port.getD .port0

/-- The RPL port of a node that has one. -/
def rpl (r : Ring τ) : PortId := r.cfg.rplPort.getD .port0

/-- A row that leaves everything as it is. -/
def stay (r : Ring τ) : Effect := ⟨.keep, .keep, r.state, .keep, .keep, .keep⟩

/-- What a timer of the RPL owner does when PENDING is left; the other nodes run none. -/
def ownerStop (r : Ring τ) : TimerEffect := if r.cfg.isRplOwner then .stop else .keep

/-- What a timer of a revertive RPL owner does when it starts to wait. -/
def ownerStart (r : Ring τ) : TimerEffect :=
  if r.cfg.isRplOwner && r.cfg.isRevertive then .start else .keep

/-- DNF where the block is already in place. -/
def dnfIf (r : Ring τ) (p : PortId) : UInt8 := if (r.port p).isBlocked then rapsFlagDnf else 0

/-- Some port is blocked, as the rows test it. -/
def anyBlocked (r : Ring τ) : Bool := (r.port .port0).isBlocked || (r.port .port1).isBlocked

/-- FS, SF and MS where they take effect: announce `request` behind a block on `p` alone. The timers
run in PENDING only. -/
def switchEffect (r : Ring τ) (request : RapsRequest) (p : PortId) (next : RingState) : Effect :=
  let timer := if r.state = .pending then r.ownerStop else .keep
  ⟨.only p, .start request (r.dnfIf p), next, .keep, timer, timer⟩

/-- A remote request that takes over: open the ports and fall silent. -/
def withdraw (r : Ring τ) (ports : PortEffect) (next : RingState) : Effect :=
  let timer := if r.state = .pending then r.ownerStop else .keep
  ⟨ports, .stop, next, .keep, timer, timer⟩

/-- Rows 30, 36 and 44: a node that still blocks a port says so and waits. -/
def announceEffect (r : Ring τ) : Effect :=
  ⟨.keep, .start .nr 0, .pending, .start, .keep, r.ownerStart⟩

/-- Rows 58, 66 and 68: the RPL owner moves the block to the RPL, any other node only moves on. `wtr`
and `wtb` say which timers the row stops. -/
def revertEffect (r : Ring τ) (wtr wtb : TimerEffect) : Effect :=
  if r.cfg.isRplOwner then
    ⟨.only r.rpl, .start .nr (rapsFlagRb ||| r.dnfIf r.rpl), .idle, .keep, wtr, wtb⟩
  else ⟨.keep, .keep, .idle, .keep, .keep, .keep⟩

/-- **The table, by requests.** -/
def effect (r : Ring τ) (req : RingRequest) (port : Option PortId) (remote : Option NodeId) :
    Effect :=
  match req with
  | .fs =>
    if r.state = .forcedSwitch then
      ⟨.add (named port), .start .fs 0, .forcedSwitch, .keep, .keep, .keep⟩
    else r.switchEffect .fs (named port) .forcedSwitch
  | .sf =>
    if r.state = .forcedSwitch then r.stay else r.switchEffect .sf (named port) .protection
  | .ms =>
    match r.state with
    | .idle | .pending => r.switchEffect .ms (named port) .manualSwitch
    | _ => r.stay
  | .rapsFs =>
    if r.state = .forcedSwitch then r.stay else r.withdraw .openAll .forcedSwitch
  | .rapsSf =>
    match r.state with
    | .idle | .pending => r.withdraw .openNonfailed .protection
    | .manualSwitch => r.withdraw .openNonfailed .manualSwitch
    | _ => r.stay
  | .rapsMs =>
    match r.state with
    | .idle | .pending => r.withdraw .openNonfailed .manualSwitch
    | .manualSwitch => if r.anyBlocked then r.announceEffect else r.stay
    | _ => r.stay
  | .clearSf =>
    match r.state with
    | .protection => ⟨.keep, .start .nr 0, .pending, .start, r.ownerStart, .keep⟩
    | _ => r.stay
  | .clear =>
    match r.state with
    | .manualSwitch | .forcedSwitch =>
      if r.anyBlocked then r.announceEffect else ⟨.keep, .keep, .pending, .keep, .keep, .keep⟩
    | .pending => r.revertEffect .stop .stop
    | _ => r.stay
  | .wtrExpires => if r.state = .pending then r.revertEffect .keep .stop else r.stay
  | .wtbExpires => if r.state = .pending then r.revertEffect .stop .keep else r.stay
  | .rapsNrRb =>
    match r.state with
    | .idle =>
      ⟨.release (ringOtherPort r.cfg.rplPort), if r.cfg.isRplOwner then .keep else .stop, .idle,
        .keep, .keep, .keep⟩
    | .pending =>
      if r.cfg.isRplNeighbour then ⟨.only r.rpl, .stop, .idle, .keep, r.ownerStop, r.ownerStop⟩
      else if r.cfg.isRplOwner then ⟨.keep, .keep, .idle, .keep, .stop, .stop⟩
      else ⟨.openAll, .stop, .idle, .keep, .keep, .keep⟩
    | _ => ⟨.keep, .keep, .pending, .keep, .keep, .keep⟩
  | .rapsNr =>
    match r.state with
    | .idle =>
      if !r.cfg.isRplOwner && !r.cfg.isRplNeighbour && r.isBelow remote then
        ⟨.openNonfailed, .stop, .idle, .keep, .keep, .keep⟩
      else r.stay
    | .pending =>
      if r.isBelow remote then ⟨.openNonfailed, .stop, .pending, .keep, .keep, .keep⟩ else r.stay
    | .protection => ⟨.keep, .keep, .pending, .keep, r.ownerStart, .keep⟩
    | _ => ⟨.keep, .keep, .pending, .keep, .keep, r.ownerStart⟩
  | .invalid | .wtrRunning | .wtbRunning => r.stay

theorem hasBlock_iff {r : Ring τ} : r.HasBlock ↔ r.anyBlocked = true := by
  constructor
  · intro h
    obtain ⟨p, hp⟩ := h
    cases p with
    | port0 => exact Bool.or_eq_true _ _ |>.mpr (.inl hp)
    | port1 => exact Bool.or_eq_true _ _ |>.mpr (.inr hp)
  · intro h
    rcases Bool.or_eq_true _ _ |>.mp h with h | h
    · exact ⟨_, h⟩
    · exact ⟨_, h⟩

theorem BlocksOnly.hasBlock {r : Ring τ} {p : PortId} (h : r.BlocksOnly p) : r.HasBlock := ⟨p, h.1⟩

/-! ## What an effect leaves behind -/

section apply

variable (e : Effect) (now : τ) (r : Ring τ)

@[simp] theorem apply_port (p : PortId) :
    (e.apply now r).port p = { r.port p with isBlocked := e.ports.blocked r p } := by
  cases p <;> rfl

end apply

/-! ## The actions, as effects -/

theorem switchPort_eq (r : Ring τ) (request : RapsRequest) (p : PortId) :
    r.switchPort request (some p) =
      { r with
        port0 := { r.port0 with isBlocked := decide (PortId.port0 = p) }
        port1 := { r.port1 with isBlocked := decide (PortId.port1 = p) }
        tx := r.tx.start request (r.dnfIf p) } := by
  cases p <;> rcases r with ⟨⟨b₀, _⟩, ⟨b₁, _⟩, _⟩ <;> cases b₀ <;> cases b₁ <;> rfl

theorem revertRpl_eq (r : Ring τ) {p : PortId} (hp : r.cfg.rplPort = some p) :
    r.revertRpl =
      { r with
        port0 := { r.port0 with isBlocked := decide (PortId.port0 = p) }
        port1 := { r.port1 with isBlocked := decide (PortId.port1 = p) }
        tx := r.tx.start .nr (rapsFlagRb ||| r.dnfIf p) } := by
  rcases r with ⟨⟨b₀, _⟩, ⟨b₁, _⟩, cfg, _⟩
  simp only at hp
  cases p <;> cases b₀ <;> cases b₁ <;>
    simp [revertRpl, hp, isPortBlocked, port, dnfIf, blockPort, unblockPort, startTx, rapsFlagRb,
      rapsFlagDnf, PortId.other]

theorem unblockNonfailedPorts_eq (r : Ring τ) :
    r.unblockNonfailedPorts =
      { r with
        port0 := { r.port0 with isBlocked := r.port0.isFailed && r.port0.isBlocked }
        port1 := { r.port1 with isBlocked := r.port1.isFailed && r.port1.isBlocked } } := by
  rcases r with ⟨⟨b₀, f₀⟩, ⟨b₁, f₁⟩, _⟩
  cases f₀ <;> cases f₁ <;> simp [unblockNonfailedPorts, unblockPort]

theorem announceBlock_eq (r : Ring τ) (now : τ) :
    (r.announceBlock now).enter .pending = r.announceEffect.apply now r := by
  unfold announceBlock announceEffect ownerStart
  cases h : r.cfg.isRplOwner && r.cfg.isRevertive <;>
    simp [startGuardTimer, startTx, h] <;> rfl

theorem stopOwnerTimers_eq (r : Ring τ) (now : τ) :
    r.stopOwnerTimers =
      { r with timers := { r.timers with
                            wtr := r.ownerStop.apply now r.timers.wtr
                            wtb := r.ownerStop.apply now r.timers.wtb } } := by
  unfold stopOwnerTimers ownerStop
  split <;> rfl

theorem switchPort_apply (r : Ring τ) (now : τ) (request : RapsRequest) (p : PortId)
    (next : RingState) (h : r.state ≠ .pending) :
    (r.switchPort request (some p)).enter next = (r.switchEffect request p next).apply now r := by
  simp only [switchPort_eq, switchEffect, if_neg h]
  rfl

theorem switchPort_apply_pending (r : Ring τ) (now : τ) (request : RapsRequest) (p : PortId)
    (next : RingState) (h : r.state = .pending) :
    (r.switchPort request (some p)).stopOwnerTimers.enter next =
      (r.switchEffect request p next).apply now r := by
  simp only [switchPort_eq, switchEffect, if_pos h, stopOwnerTimers_eq _ now]
  rfl

theorem withdraw_openAll_apply (r : Ring τ) (now : τ) (next : RingState) (h : r.state ≠ .pending) :
    ((r.unblockPort .port0).unblockPort .port1).stopTx.enter next =
      (r.withdraw .openAll next).apply now r := by
  simp only [withdraw, if_neg h]
  rfl

theorem withdraw_openNonfailed_apply (r : Ring τ) (now : τ) (next : RingState)
    (h : r.state ≠ .pending) :
    r.unblockNonfailedPorts.stopTx.enter next = (r.withdraw .openNonfailed next).apply now r := by
  simp only [unblockNonfailedPorts_eq, withdraw, if_neg h]
  rfl

theorem withdraw_openAll_apply_pending (r : Ring τ) (now : τ) (next : RingState)
    (h : r.state = .pending) :
    ((r.unblockPort .port0).unblockPort .port1).stopTx.stopOwnerTimers.enter next =
      (r.withdraw .openAll next).apply now r := by
  simp only [withdraw, if_pos h, stopOwnerTimers_eq _ now]
  rfl

theorem withdraw_openNonfailed_apply_pending (r : Ring τ) (now : τ) (next : RingState)
    (h : r.state = .pending) :
    r.unblockNonfailedPorts.stopTx.stopOwnerTimers.enter next =
      (r.withdraw .openNonfailed next).apply now r := by
  simp only [unblockNonfailedPorts_eq, withdraw, if_pos h, stopOwnerTimers_eq _ now]
  rfl

/-! ## The rows are their effects -/

theorem fsmIdle_eq (r : Ring τ) (now : τ) {req : RingRequest} {port : Option PortId}
    {remote : Option NodeId} (hs : r.state = .idle)
    (hport : req.namesPort = true → port.isSome = true) :
    r.fsmIdle req port remote = (r.effect req port remote).apply now r := by
  have hne : r.state ≠ .pending := by simp [hs]
  cases req with
  | fs | sf | ms =>
    obtain ⟨p, rfl⟩ := Option.isSome_iff_exists.mp (hport rfl)
    simp only [fsmIdle, effect, hs, named, Option.getD_some]
    exact switchPort_apply r now _ p _ hne
  | rapsFs =>
    simp only [fsmIdle, effect, hs]
    exact withdraw_openAll_apply r now _ hne
  | rapsSf | rapsMs =>
    simp only [fsmIdle, effect, hs]
    exact withdraw_openNonfailed_apply r now _ hne
  | rapsNrRb =>
    simp only [fsmIdle, effect, hs]
    rcases r with ⟨⟨b₀, _⟩, ⟨b₁, _⟩, cfg, _⟩
    cases hown : cfg.isRplOwner <;> cases hp : ringOtherPort cfg.rplPort <;>
      simp_all [unblockPort, stopTx, Effect.apply, PortEffect.blocked, TxEffect.apply,
        TimerEffect.apply, Ring.port]
  | rapsNr =>
    simp only [fsmIdle, effect, hs]
    split
    · rw [unblockNonfailedPorts_eq]
      rcases r with ⟨⟨b₀, _⟩, ⟨b₁, _⟩, cfg, _⟩
      simp_all [stopTx, Effect.apply, PortEffect.blocked, TxEffect.apply, TimerEffect.apply, Ring.port]
    · rfl
  | clear | clearSf =>
    simp only [fsmIdle, effect, hs]
    rfl
  | wtrExpires | wtbExpires =>
    simp only [fsmIdle, effect, if_neg hne]
    rfl
  | wtrRunning | wtbRunning | invalid => rfl

theorem enter_apply (r : Ring τ) (now : τ) (next : RingState) :
    r.enter next = Effect.apply ⟨.keep, .keep, next, .keep, .keep, .keep⟩ now r := rfl

theorem startWtrTimer_apply (r : Ring τ) (now : τ) :
    (if r.cfg.isRplOwner && r.cfg.isRevertive then r.startWtrTimer now else r).enter .pending =
      Effect.apply ⟨.keep, .keep, .pending, .keep, r.ownerStart, .keep⟩ now r := by
  unfold ownerStart
  split <;> rfl

theorem startWtbTimer_apply (r : Ring τ) (now : τ) :
    (if r.cfg.isRplOwner && r.cfg.isRevertive then r.startWtbTimer now else r).enter .pending =
      Effect.apply ⟨.keep, .keep, .pending, .keep, .keep, r.ownerStart⟩ now r := by
  unfold ownerStart
  split <;> rfl

/-- Rows 30 and 44: only a node that has something to announce does. -/
theorem clear_apply (r : Ring τ) (now : τ) :
    (if r.anyBlocked then r.announceBlock now else r).enter .pending =
      (if r.anyBlocked then r.announceEffect
        else ⟨.keep, .keep, .pending, .keep, .keep, .keep⟩).apply now r := by
  split
  · exact announceBlock_eq r now
  · rfl

theorem fsmProtection_eq (r : Ring τ) (now : τ) {req : RingRequest} {port : Option PortId}
    {remote : Option NodeId} (hs : r.state = .protection)
    (hport : req.namesPort = true → port.isSome = true) :
    r.fsmProtection now req port = (r.effect req port remote).apply now r := by
  have hne : r.state ≠ .pending := by simp [hs]
  have hstay : r.enter .protection = r := by rw [← hs]; rfl
  cases req with
  | fs =>
    obtain ⟨p, rfl⟩ := Option.isSome_iff_exists.mp (hport rfl)
    simp only [fsmProtection, effect, hs, named, Option.getD_some]
    exact switchPort_apply r now _ p _ hne
  | sf =>
    obtain ⟨p, rfl⟩ := Option.isSome_iff_exists.mp (hport rfl)
    simp only [fsmProtection, effect, hs, named, Option.getD_some]
    -- row 19 keeps the state, which is the one the table enters
    rw [if_neg (by simp), ← switchPort_apply r now _ p _ hne, switchPort_eq]
    simp only [enter, hs]
  | rapsFs =>
    simp only [fsmProtection, effect, hs]
    exact withdraw_openAll_apply r now _ hne
  | clearSf =>
    simp only [fsmProtection, effect, hs, ownerStart]
    split <;> rename_i h <;> simp only [startTx, startGuardTimer] at h <;> simp only [h] <;> rfl
  | rapsNrRb =>
    simp only [fsmProtection, effect, hs]
    exact enter_apply r now _
  | rapsNr =>
    simp only [fsmProtection, effect, hs]
    exact startWtrTimer_apply r now
  | wtrExpires | wtbExpires =>
    simp only [fsmProtection, effect, if_neg hne]
    rfl
  | clear | rapsSf | rapsMs | ms =>
    simp only [fsmProtection, effect, hs]
    rfl
  | wtrRunning | wtbRunning | invalid => rfl

theorem fsmManualSwitch_eq (r : Ring τ) (now : τ) {req : RingRequest} {port : Option PortId}
    {remote : Option NodeId} (hs : r.state = .manualSwitch)
    (hport : req.namesPort = true → port.isSome = true) :
    r.fsmManualSwitch now req port = (r.effect req port remote).apply now r := by
  have hne : r.state ≠ .pending := by simp [hs]
  have hany : (r.isPortBlocked (some .port0) || r.isPortBlocked (some .port1)) = r.anyBlocked := rfl
  cases req with
  | fs | sf =>
    obtain ⟨p, rfl⟩ := Option.isSome_iff_exists.mp (hport rfl)
    simp only [fsmManualSwitch, effect, hs, named, Option.getD_some]
    exact switchPort_apply r now _ p _ hne
  | rapsFs =>
    simp only [fsmManualSwitch, effect, hs]
    exact withdraw_openAll_apply r now _ hne
  | rapsSf =>
    simp only [fsmManualSwitch, effect, hs]
    rw [← withdraw_openNonfailed_apply r now _ hne, unblockNonfailedPorts_eq]
    -- row 35 names no new state
    simp only [enter, stopTx, hs]
  | clear =>
    simp only [fsmManualSwitch, effect, hs, Bool.or_comm (r.isPortBlocked (some .port1)), hany]
    exact clear_apply r now
  | rapsMs =>
    simp only [fsmManualSwitch, effect, hs, hany]
    split
    · exact announceBlock_eq r now
    · rw [← hs]; rfl
  | rapsNrRb =>
    simp only [fsmManualSwitch, effect, hs]
    exact enter_apply r now _
  | rapsNr =>
    simp only [fsmManualSwitch, effect, hs]
    exact startWtbTimer_apply r now
  | wtrExpires | wtbExpires =>
    simp only [fsmManualSwitch, effect, if_neg hne]
    rfl
  | clearSf | ms =>
    simp only [fsmManualSwitch, effect, hs]
    rfl
  | wtrRunning | wtbRunning | invalid => rfl

theorem fsmForcedSwitch_eq (r : Ring τ) (now : τ) {req : RingRequest} {port : Option PortId}
    {remote : Option NodeId} (hs : r.state = .forcedSwitch)
    (hport : req.namesPort = true → port.isSome = true) :
    r.fsmForcedSwitch now req port = (r.effect req port remote).apply now r := by
  have hne : r.state ≠ .pending := by simp [hs]
  have hany : (r.isPortBlocked (some .port0) || r.isPortBlocked (some .port1)) = r.anyBlocked := rfl
  cases req with
  | fs =>
    obtain ⟨p, rfl⟩ := Option.isSome_iff_exists.mp (hport rfl)
    simp only [fsmForcedSwitch, effect, hs, named, Option.getD_some]
    rcases r with ⟨⟨b₀, _⟩, ⟨b₁, _⟩, _⟩
    cases p <;> cases hs <;> simp [blockPort, startTx, Effect.apply, PortEffect.blocked,
      TxEffect.apply, TimerEffect.apply, Ring.port]
  | clear =>
    simp only [fsmForcedSwitch, effect, hs, hany]
    exact clear_apply r now
  | rapsNrRb =>
    simp only [fsmForcedSwitch, effect, hs]
    exact enter_apply r now _
  | rapsNr =>
    simp only [fsmForcedSwitch, effect, hs]
    exact startWtbTimer_apply r now
  | wtrExpires | wtbExpires =>
    simp only [fsmForcedSwitch, effect, if_neg hne]
    rfl
  | rapsFs | sf | clearSf | rapsSf | rapsMs | ms =>
    simp only [fsmForcedSwitch, effect, hs]
    rfl
  | wtrRunning | wtbRunning | invalid => rfl

theorem rplPort_of_owner {r : Ring τ} (hrpl : r.cfg.RplSet) (h : r.cfg.isRplOwner = true) :
    r.cfg.rplPort = some r.rpl := by
  simp only [Config.RplSet, h, Bool.true_or] at hrpl
  obtain ⟨p, hp⟩ := Option.isSome_iff_exists.mp hrpl
  simp [rpl, hp]

theorem rplPort_of_neighbour {r : Ring τ} (hrpl : r.cfg.RplSet)
    (h : r.cfg.isRplNeighbour = true) : r.cfg.rplPort = some r.rpl := by
  simp only [Config.RplSet, h, Bool.or_true] at hrpl
  obtain ⟨p, hp⟩ := Option.isSome_iff_exists.mp hrpl
  simp [rpl, hp]

/-- Rows 58, 66 and 68: they differ in the timers `t` they leave. -/
theorem revertRpl_apply (r : Ring τ) (now : τ) (hrpl : r.cfg.RplSet) (wtr wtb : TimerEffect) :
    (if r.cfg.isRplOwner then
        Ring.revertRpl { r with timers := ⟨r.timers.guard, wtr.apply now r.timers.wtr,
                                           wtb.apply now r.timers.wtb⟩ }
      else r).enter .idle = (r.revertEffect wtr wtb).apply now r := by
  unfold revertEffect
  split
  · rename_i hown
    rw [revertRpl_eq (p := r.rpl)]
    · rfl
    · exact rplPort_of_owner hrpl hown
  · rfl

/-- Row 70 at an RPL neighbour: the block goes back to its end of the RPL. -/
theorem reblock_eq (r : Ring τ) {p : PortId} (hp : r.cfg.rplPort = some p) :
    ((r.blockPort r.cfg.rplPort).unblockPort (ringOtherPort r.cfg.rplPort)).stopTx =
      { r with
        port0 := { r.port0 with isBlocked := decide (PortId.port0 = p) }
        port1 := { r.port1 with isBlocked := decide (PortId.port1 = p) }
        tx := { r.tx with isSendingRaps := false } } := by
  rw [hp]
  cases p <;> rfl

/-- Row 70. Under both roles the neighbour's branch is the one with an effect. -/
theorem fsmPending_rapsNrRb (r : Ring τ) (now : τ) (port : Option PortId) (remote : Option NodeId)
    (hs : r.state = .pending) (hrpl : r.cfg.RplSet) :
    r.fsmPending .rapsNrRb port remote = (r.effect .rapsNrRb port remote).apply now r := by
  simp only [fsmPending, effect, hs, stopOwnerTimers_eq r now]
  cases hnb : r.cfg.isRplNeighbour with
  | false =>
    cases hown : r.cfg.isRplOwner with
    | false => simp [ownerStop, hown, hnb, stopTx, unblockPort]; rfl
    | true => simp [ownerStop, hown, hnb]; rfl
  | true =>
    simp only [Bool.not_true, Bool.and_false, Bool.false_eq_true, if_false, hnb, if_true]
    rw [reblock_eq (p := r.rpl)]
    · rfl
    · exact rplPort_of_neighbour hrpl hnb

theorem fsmPending_eq (r : Ring τ) (now : τ) {req : RingRequest} {port : Option PortId}
    {remote : Option NodeId} (hs : r.state = .pending)
    (hport : req.namesPort = true → port.isSome = true) (hrpl : r.cfg.RplSet) :
    r.fsmPending req port remote = (r.effect req port remote).apply now r := by
  cases req with
  | fs | sf =>
    obtain ⟨p, rfl⟩ := Option.isSome_iff_exists.mp (hport rfl)
    simp only [fsmPending, effect, hs, named, Option.getD_some]
    exact switchPort_apply_pending r now _ p _ hs
  | ms =>
    obtain ⟨p, rfl⟩ := Option.isSome_iff_exists.mp (hport rfl)
    simp only [fsmPending, effect, hs, named, Option.getD_some]
    rw [← switchPort_apply_pending r now _ p _ hs]
    -- row 65 stops the timers before it switches, the other rows after
    simp only [switchPort_eq, stopOwnerTimers_eq _ now]
    rfl
  | rapsFs =>
    simp only [fsmPending, effect, hs]
    exact withdraw_openAll_apply_pending r now _ hs
  | rapsSf | rapsMs =>
    simp only [fsmPending, effect, hs]
    exact withdraw_openNonfailed_apply_pending r now _ hs
  | clear =>
    simp only [fsmPending, effect, hs]
    exact revertRpl_apply r now hrpl .stop .stop
  | wtrExpires =>
    simp only [fsmPending, effect, hs]
    exact revertRpl_apply r now hrpl .keep .stop
  | wtbExpires =>
    simp only [fsmPending, effect, hs]
    exact revertRpl_apply r now hrpl .stop .keep
  | rapsNrRb => exact fsmPending_rapsNrRb r now port remote hs hrpl
  | rapsNr =>
    simp only [fsmPending, effect, hs]
    split
    · rw [unblockNonfailedPorts_eq]
      rcases r with ⟨⟨b₀, _⟩, ⟨b₁, _⟩, cfg, _⟩
      simp_all [stopTx, Effect.apply, PortEffect.blocked, TxEffect.apply, TimerEffect.apply, Ring.port]
    · rfl
  | clearSf =>
    simp only [fsmPending, effect, hs]
    rfl
  | wtrRunning | wtbRunning | invalid => rfl

/-- **The machine is its table.** Outside INIT, on a request that carries what its kind names and
under a well-formed RPL configuration, a row of `ring_fsm` is the application of its effect. -/
theorem fsmRow_eq_apply (r : Ring τ) (now : τ) {req : RingRequest} {port : Option PortId}
    {remote : Option NodeId} (hinit : r.state ≠ .init)
    (hport : req.namesPort = true → port.isSome = true) (hrpl : r.cfg.RplSet) :
    r.fsmRow now req port remote = (r.effect req port remote).apply now r := by
  unfold fsmRow
  cases hs : r.state with
  | init => exact absurd hs hinit
  | idle => exact fsmIdle_eq r now hs hport
  | protection => exact fsmProtection_eq r now hs hport
  | manualSwitch => exact fsmManualSwitch_eq r now hs hport
  | forcedSwitch => exact fsmForcedSwitch_eq r now hs hport
  | pending => exact fsmPending_eq r now hs hport hrpl

/-- The port a node blocks when it leaves INIT: its RPL port, or `port0` on a node without one. -/
def startPort (r : Ring τ) : PortId :=
  if r.cfg.isRplOwner || r.cfg.isRplNeighbour then r.rpl else .port0

/-- Row 01 as an effect. -/
def initEffect (r : Ring τ) : Effect :=
  ⟨.only r.startPort, .start .nr 0, .pending, .stop,
    if r.cfg.isRplOwner && r.cfg.isRevertive then .start else .stop, .stop⟩

/-- **Row 01.** The three branches differ in the port they block and in the timer of the owner. -/
theorem fsmInit_eq_apply (r : Ring τ) (now : τ) (hrpl : r.cfg.RplSet) :
    r.fsmInit now = r.initEffect.apply now r := by
  obtain ⟨_, _, ⟨own, nb, rev, rpl, _, _, _, _⟩, _⟩ := r
  cases rpl with
  | none =>
    -- without a port there is no role
    cases own <;> cases nb <;> simp [Config.RplSet] at hrpl
    rfl
  | some p => cases own <;> cases nb <;> cases rev <;> cases p <;> rfl

end Ring

end Erps
