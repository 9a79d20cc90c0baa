import Erps.Kernel.Life

/-!
# What the module holds

The balance of a whole life of the module, over any number of loadings (`balanced`). Netmap comes out
even: while there is a ring its two ports are attached and their adapters held, and nothing else ever
is. Memory does not. The frame buffer of a ring outlives it, and so does the record of each frame that
`er_raps_parse` turns away: anyone on the ring can have the module lose another one.

It takes an ERIOCINIT whose way through `er_ring_create` is unwound, and a netmap that attaches no port
twice.
-/

set_option autoImplicit false

namespace Erps.Kernel.Life

open Bytes Create

/-- An ERIOCINIT is unwound where it fails, and is not given one port twice. -/
def Unwound (env : Env) (_ : State) (e : Event) : Prop :=
  ∀ now req calls idx, e = .ioctl now .init (some req) calls idx →
    Unwinds env.ignoresNull calls ∧
      (calls.port1.attach = true → portName req.erPort0 ≠ portName req.erPort1)

/-- How much of each kind is handed out: what the ring has, the buffers of all rings so far, and a
record for each ignored frame. -/
def State.balance (s : State) : Kind → Int
  | .ring => if s.erGlobal.isSome then 1 else 0
  | .port => if s.erGlobal.isSome then 2 else 0
  | .raps => (if s.erGlobal.isSome then 1 else 0) + s.ignored
  | .frame => s.created

/-- The invariant. -/
structure Balanced (s : State) : Prop where
  heap : s.held.heap = s.balance
  idle : s.erGlobal = none → s.held.netmap = .empty
  live : ∀ ring, s.erGlobal = some ring → ∃ name₀ name₁, Opened ring name₀ name₁ ∧
    name₀ ≠ name₁ ∧ s.held.netmap = opened name₀ name₁
  unloaded : s.cdev = false → s.erGlobal = none

/-- A ring takes two ports, and one of everything else. -/
theorem heap_withRing (m : Held) (k : Kind) :
    m.withRing.heap k = m.heap k + if k = .port then 2 else 1 := by
  cases k <;> simp [Held.withRing, Held.malloc, add_assoc]

/-- What is held with a ring is what would be held without it, and the ring. -/
theorem Balanced.held_eq {s : State} (h : Balanced s) {ring : GlobalRing}
    (hg : s.erGlobal = some ring) : ∃ (m : Held) (name₀ name₁ : List UInt8), Opened ring name₀ name₁ ∧ name₀ ≠ name₁ ∧
      m.netmap = .empty ∧ s.held = { m.withRing with netmap := opened name₀ name₁ } ∧
      ∀ k, (m.malloc .frame).heap k = ({ s with erGlobal := none } : State).balance k := by
  obtain ⟨name₀, name₁, ho, hne, hnetmap⟩ := h.live ring hg
  refine ⟨⟨fun k => s.held.heap k - if k = .port then 2 else 1, .empty⟩, name₀, name₁, ho, hne, rfl,
    ?_, ?_⟩
  · apply Held.ext
    · funext k
      rw [heap_withRing]
      simp
    · exact hnetmap
  · intro k
    have hk := congrFun h.heap k
    cases k <;> simp [Held.malloc, State.balance, hg] at hk ⊢ <;> omega

namespace Balanced

theorem boot : Balanced .boot where
  heap := by
    funext k
    cases k <;> rfl
  idle _ := rfl
  live _ h := by cases h
  unloaded _ := rfl

variable {env : Env} {s t : State} {e : Event}

theorem fini (h : Balanced s) (ignoresNull : Bool) : Balanced (erModuleFini ignoresNull s) := by
  unfold erModuleFini erDestroyAllRings
  cases hg : s.erGlobal with
  | none =>
    refine ⟨h.heap, h.idle, h.live, fun _ => hg⟩
  | some ring =>
    obtain ⟨m, name₀, name₁, ho, hne, hm, hheld, hheap⟩ := h.held_eq hg
    have hdestroy : erRingDestroy ignoresNull ring s.held = m.malloc .frame := by
      rw [hheld]
      exact erRingDestroy_of_opened ho hne hm
    simp only [hdestroy]
    refine ⟨funext hheap, fun _ => hm, ?_, fun _ => rfl⟩
    intro ring' hring
    simp at hring

theorem step (h : Balanced s) (hu : Unwound env s e) (hst : handle env s e = some t) :
    Balanced t := by
  have hlived := lived hst
  cases hlived with
  | answered | unheard => exact h
  | loaded makeDev hc =>
    have hg := h.unloaded hc
    refine ⟨?_, fun _ => h.idle hg, ?_, fun _ => rfl⟩
    · funext k
      have hk := congrFun h.heap k
      cases k <;> simpa [erModuleInit, State.balance, hg] using hk
    · intro ring hring
      simp [erModuleInit] at hring
  | unloaded => exact h.fini _
  | @refused now req calls idx held hc hg hcreate =>
    obtain ⟨hun, _⟩ := hu now req calls idx rfl
    rcases erRingCreate_of_unwinds hun (h.idle hg) with heq | ⟨ring, heq, _⟩
    · cases hcreate.symm.trans heq
      exact h
    · cases hcreate.symm.trans heq
  | @inited now req calls idx ring held hc hg hvalid hcreate =>
    obtain ⟨hun, hnames⟩ := hu now req calls idx rfl
    rcases erRingCreate_of_unwinds hun (h.idle hg) with heq | ⟨ring', heq, ho, _, hattach⟩
    · cases hcreate.symm.trans heq
    · cases hcreate.symm.trans heq
      refine ⟨?_, nofun, ?_, ?_⟩
      · funext k
        have hk := congrFun h.heap k
        show s.held.withRing.heap k = _
        rw [heap_withRing, hk]
        cases k <;> simp [State.balance, hg, add_comm]
      · intro ring hring
        cases hring
        exact ⟨_, _, ⟨ho.port0, ho.port1⟩, hnames hattach, rfl⟩
      · intro hc'
        rw [show s.cdev = false from hc'] at hc
        cases hc
  | @received now rapsCreate bdgPort data ring hc hg =>
    obtain ⟨name₀, name₁, ho, hne, hnetmap⟩ := h.live ring hg
    refine ⟨?_, nofun, ?_, ?_⟩
    · funext k
      have hk := congrFun h.heap k
      unfold State.afterFrame
      split
      · cases k <;> simp [State.balance, hg, Held.malloc] at hk ⊢ <;> omega
      · cases k <;> simpa [State.balance, hg] using hk
    · intro ring' hring
      cases hring
      refine ⟨name₀, name₁, ⟨ho.port0, ho.port1⟩, hne, ?_⟩
      unfold State.afterFrame
      split <;> exact hnetmap
    · intro hc'
      rw [show s.cdev = false from hc'] at hc
      cases hc

theorem of_reachable (h : ((module env).restrict (Unwound env)).Reachable s) : Balanced s := by
  refine h.invariant (I := Balanced) ?_ ?_
  · rintro s rfl
    exact boot
  · intro s e t _ hs hst
    exact hs.step hst.1 hst.2

end Balanced

/-- **The balance of the module.** Netmap holds the two ports of the ring, if there is one, and nothing
else, and was never misused; with the module unloaded there is none. Of memory the module holds one
ring at most with its two ports and its record, and has lost the frame buffer of every earlier ring and a
record for every frame it could not parse. -/
theorem balanced {env : Env} {s : State}
    (h : ((module env).restrict (Unwound env)).Reachable s) :
    s.held.netmap.misuse = [] ∧ (∀ k, s.held.heap k = s.balance k) ∧
      (s.cdev = false → s.erGlobal = none) ∧
      (s.erGlobal = none → s.held.netmap.attached = ∅ ∧ s.held.netmap.refs = 0) ∧
      ∀ ring, s.erGlobal = some ring → ring.port0.name ≠ ring.port1.name ∧
        s.held.netmap.attached = {ring.port0.name, ring.port1.name} ∧
        s.held.netmap.refs = {ring.port0.name, ring.port1.name} := by
  have hb := Balanced.of_reachable h
  refine ⟨?_, congrFun hb.heap, hb.unloaded, ?_, ?_⟩
  · cases hg : s.erGlobal with
    | none => rw [hb.idle hg]; rfl
    | some ring =>
      obtain ⟨name₀, name₁, _, _, hnetmap⟩ := hb.live ring hg
      rw [hnetmap]
      rfl
  · intro hg
    rw [hb.idle hg]
    exact ⟨rfl, rfl⟩
  · intro ring hg
    obtain ⟨name₀, name₁, ho, hne, hnetmap⟩ := hb.live ring hg
    rw [hnetmap, ho.port0, ho.port1]
    exact ⟨hne, Finset.pair_comm _ _, Multiset.pair_comm _ _⟩

/-- A little-endian host with 1000 ticks a second. -/
def someEnv : Env := ⟨.little, 1000, true, fun _ _ => .broadcast⟩

/-- A plain node with the ports `a` and `b`. -/
def plainRequest : ErReqData where
  erPort0 := [97]
  erPort1 := [98]
  erNodeId := .zero
  erId := 1
  erRapsVid := 100
  erRevertive := 1
  erRplPort := 0
  erRplOwner := 0
  erRplNeighbour := 0
  erPort0Failed := 0
  erPort1Failed := 0
  erPort0Blocked := 0
  erPort1Blocked := 0
  erGuardTime := 500
  erWtrTime := 300000

/-- Everything goes well. -/
def allWell : Calls := ⟨true, ⟨true, true, .found⟩, ⟨true, true, .found⟩, true, true⟩

/-- The two ports have the indices 1 and 2. -/
def someIdx : PortId → Int
  | .port0 => 1
  | .port1 => 2

/-- An R-APS destination address, and nothing that makes sense behind it. -/
def noise : List UInt8 := [0x01, 0x19, 0xa7, 0, 0, 1] ++ List.replicate 49 0xff

/-- The module is loaded, makes a ring, hears noise and is unloaded. -/
def oneLife : List Event :=
  [.load true, .ioctl 0 .init (some plainRequest) allWell someIdx, .recv 10 true 1 noise, .unload]

/-- A record and a frame buffer are lost. -/
theorem balanced_oneLife :
    ∃ t, Lts.exec (handle someEnv) .boot oneLife = some t ∧
      t.held.heap .raps = 1 ∧ t.held.heap .frame = 1 ∧ t.held.netmap.attached = ∅ := by
  have hsteps : ∃ a b c t, handle someEnv .boot (.load true) = some a ∧
      handle someEnv a (.ioctl 0 .init (some plainRequest) allWell someIdx) = some b ∧
      handle someEnv b (.recv 10 true 1 noise) = some c ∧ handle someEnv c .unload = some t ∧
      t.cdev = false ∧ t.created = 1 ∧ t.ignored = 1 :=
    ⟨_, _, _, _, rfl, rfl, rfl, rfl, rfl, rfl, rfl⟩
  obtain ⟨a, b, c, t, ha, hb, hc, ht, hcdev, hcreated, hignored⟩ := hsteps
  have hload : ∀ s, Unwound someEnv s (.load true) := by
    intro s now req calls idx he
    cases he
  have hunload : ∀ s, Unwound someEnv s .unload := by
    intro s now req calls idx he
    cases he
  have hrecv : ∀ s, Unwound someEnv s (.recv 10 true 1 noise) := by
    intro s now req calls idx he
    cases he
  have hinit : Unwound someEnv a (.ioctl 0 .init (some plainRequest) allWell someIdx) := by
    intro now req calls idx he
    cases he
    refine ⟨.created ⟨rfl, rfl, rfl⟩ ⟨rfl, rfl, rfl⟩ rfl rfl, fun _ => ?_⟩
    decide
  have h₀ : ((module someEnv).restrict (Unwound someEnv)).Reachable .boot := .init rfl
  have h₁ := h₀.step ⟨hload _, ha⟩
  have h₂ := h₁.step ⟨hinit, hb⟩
  have h₃ := h₂.step ⟨hrecv b, hc⟩
  have h₄ := h₃.step ⟨hunload c, ht⟩
  obtain ⟨_, hheap, hunloaded, hidle, _⟩ := balanced h₄
  have hg := hunloaded hcdev
  refine ⟨t, by simp [oneLife, Lts.exec, ha, hb, hc, ht], ?_, ?_, (hidle hg).1⟩
  · rw [hheap]
    simp [State.balance, hg, hignored]
  · rw [hheap]
    simp [State.balance, hcreated]

end Erps.Kernel.Life
