import Erps.Kernel.Account
import Erps.Kernel.Listen

/-!
# The module on record

A reachable state of the module, next to what can be known of it from outside: the ERIOCINIT its ring was
made by, and the R-APS requests the ring has heard since, each with its sender (`Log`). The two determine
what the ring does to data frames (`data_held_iff`), and what ERIOCSTATUS says of it (`status_tells`).
-/

set_option autoImplicit false

namespace Erps.Kernel.Life

open Bytes Create

/-! ## What is on record -/

/-- What has become of the module as seen from outside: the request its ring was made by, and what the
ring has heard. -/
structure Log where
  asked : Option ErReqData
  heard : List (RingRequest × NodeId)

/-- Nothing yet. -/
def Log.none : Log := ⟨.none, []⟩

/-- What a step adds. -/
def Log.after (env : Env) (s : State) (e : Event) (t : State) (l : Log) : Log :=
  match e with
  | .load _ | .unload => .none
  | .ioctl _ .init (some req) _ _ =>
    if s.erGlobal.isNone && t.erGlobal.isSome then ⟨some req, []⟩ else l
  | .ioctl .. => l
  | .recv _ _ bdgPort data =>
    let request := s.erGlobal.bind fun ring => requestIn env.host ring.er bdgPort data
    { l with heard := l.heard ++ (request.map fun (request, _, id) => (request, id)).toList }

/-- The module with its record. -/
def logged (env : Env) : Lts (State × Log) Event := (module env).history .none (Log.after env)

/-- The port that a request assigns to the block: the low byte of `er_rpl_port`, taken for `port0` where
it is none at all. -/
def assignedPort (req : ErReq) : PortId := if req.erRplPort.toUInt8 ≤ 1 then .port0 else .port1

/-- The roles that it gives the node: a role takes the flag and a port. -/
def asOwner (req : ErReq) : Bool := decide (req.erRplOwner ≠ 0 ∧ req.erRplPort.toUInt8 ≠ 0)

def asNeighbour (req : ErReq) : Bool := decide (req.erRplNeighbour ≠ 0 ∧ req.erRplPort.toUInt8 ≠ 0)

theorem asOwner_iff {req : ErReq} :
    asOwner req = true ↔ req.erRplOwner ≠ 0 ∧ req.erRplPort.toUInt8 ≠ 0 := decide_eq_true_iff

theorem asNeighbour_iff {req : ErReq} :
    asNeighbour req = true ↔ req.erRplNeighbour ≠ 0 ∧ req.erRplPort.toUInt8 ≠ 0 := decide_eq_true_iff

/-- A node that this request has made and that has heard this still blocks its port. -/
def StillBlocks (req : ErReq) (heard : List (RingRequest × NodeId)) : Prop :=
  HoldsBlock (asOwner req) (asNeighbour req) heard

instance (req : ErReq) (heard : List (RingRequest × NodeId)) : Decidable (StillBlocks req heard) :=
  inferInstanceAs (Decidable (HoldsBlock ..))

/-- The ring is configured as the request says, or as the defaults do. -/
structure Made (req : ErReqData) (ring : GlobalRing) : Prop where
  valid : validRpl req.toErReq = true
  port0_name : ring.port0.name = portName req.erPort0
  port1_name : ring.port1.name = portName req.erPort1
  guardTime : ring.guardTime = guardTimeOf req.erGuardTime
  wtrTime : ring.wtrTime = wtrTimeOf req.erWtrTime
  wtbTime : ring.wtbTime = guardTimeOf req.erGuardTime + 5000
  active : ring.er.active = true
  version : ring.er.ring.cfg.version = 2
  ringId : ring.er.ring.cfg.ringId = req.erId.toNat
  rapsVid : ring.er.ring.cfg.rapsVid = rapsVidOf req.erRapsVid
  revertive : ring.er.ring.cfg.isRevertive = decide (req.erRevertive ≠ 0)
  owner : ring.er.ring.cfg.isRplOwner = asOwner req.toErReq
  neighbour : ring.er.ring.cfg.isRplNeighbour = asNeighbour req.toErReq
  rpl : ring.er.ring.rpl = assignedPort req.toErReq

theorem erPortCreate_name {ignoresNull : Bool} {calls : PortCalls} {name : List UInt8} {m m' : Held}
    {port : ErPort (List UInt8)} (h : erPortCreate ignoresNull calls name m = (some port, m')) :
    port.name = portName name := by
  by_cases ho : calls.Opens
  · rw [erPortCreate_of_opens ho] at h
    cases h
    rfl
  · rw [erPortCreate_of_not_opens ho] at h
    cases h

/-- The ring of an `er_ring_create`. -/
theorem createFor_ring {ignoresNull : Bool} {calls : Calls} {idx : PortId → Int} {now : Int32}
    {req : ErReqData} {m m' : Held} {ring : GlobalRing}
    (h : createFor ignoresNull calls idx now req m = some (some ring, m')) :
    ring.er = ⟨Kernel.erRingCreate now req.erId.toUInt16
        (if req.erRplOwner ≠ 0 then req.erRplPort.toUInt8 else erpsRplNone)
        (if req.erRplNeighbour ≠ 0 then req.erRplPort.toUInt8 else erpsRplNone),
        idx .port0, idx .port1, false⟩ ∧
      ring.port0.name = portName req.erPort0 ∧ ring.port1.name = portName req.erPort1 := by
  unfold createFor erRingCreate at h
  split at h
  · cases h
  · split at h
    · cases h
    · rename_i port0 m₀ h₀
      split at h
      · cases h
      · rename_i port1 m₁ h₁
        split at h
        · cases h
        · split at h
          · cases h
          · cases h
            exact ⟨rfl, erPortCreate_name h₀, erPortCreate_name h₁⟩

/-- A role takes a flag and a port. -/
theorem role_eq (role port : UInt8) :
    ((if role ≠ 0 then port else erpsRplNone) != 0) = decide (role ≠ 0 ∧ port ≠ 0) := by
  by_cases hr : role = 0 <;> by_cases hp : port = 0 <;> simp [hr, hp, erpsRplNone]

/-- The port that `er_ring_create` reads out of the two bytes it is handed is the one the low byte
spells. -/
theorem rplPort_eq_assignedPort {req : ErReq} (h : ValidRpl req) :
    (if ((if req.erRplNeighbour ≠ 0 then req.erRplPort.toUInt8 else erpsRplNone) != 0) = true then
        some (rplPortOf (if req.erRplNeighbour ≠ 0 then req.erRplPort.toUInt8 else erpsRplNone))
      else if ((if req.erRplOwner ≠ 0 then req.erRplPort.toUInt8 else erpsRplNone) != 0) = true then
        some (rplPortOf (if req.erRplOwner ≠ 0 then req.erRplPort.toUInt8 else erpsRplNone))
      else none).getD .port0 = assignedPort req := by
  have hport : ∀ b : UInt8, b ≠ 0 →
      rplPortOf b = if b ≤ 1 then PortId.port0 else PortId.port1 := by
    intro b hb
    unfold rplPortOf
    have hiff : b ≤ 1 ↔ b = 1 := by
      have hpos : b.toNat ≠ 0 := fun h => hb (UInt8.toNat_inj.mp h)
      rw [UInt8.le_iff_toNat_le, ← UInt8.toNat_inj]
      simp
      omega
    simp [hiff]
  unfold assignedPort
  cases h with
  | plain ho hn hp => simp [ho, hn, hp, erpsRplNone]
  | owner ho hn hp =>
    by_cases hb : req.erRplPort.toUInt8 = 0
    · simp [hn, hb, erpsRplNone]
    · simp [ho, hn, hb, erpsRplNone, hport]
  | neighbour ho hn hp =>
    by_cases hb : req.erRplPort.toUInt8 = 0
    · simp [ho, hb, erpsRplNone]
    · simp [hn, hb, hport]

/-- The node of a new ring. -/
theorem started_ring {ignoresNull : Bool} {calls : Calls} {idx : PortId → Int} {now : Int32}
    {req : ErReqData} {m m' : Held} {ring : GlobalRing}
    (h : createFor ignoresNull calls idx now req m = some (some ring, m')) :
    (started req ring).er.ring = configure (Kernel.erRingCreate now req.erId.toUInt16
      (if req.erRplOwner ≠ 0 then req.erRplPort.toUInt8 else erpsRplNone)
      (if req.erRplNeighbour ≠ 0 then req.erRplPort.toUInt8 else erpsRplNone)) 2
      (rapsVidOf req.erRapsVid) (decide (req.erRevertive ≠ 0)) := by
  unfold started erConfigure erActivateRing
  rw [(createFor_ring h).1, erRingCreate_eq]
  rfl

/-- What ERIOCINIT makes of it. -/
theorem Made.started {ignoresNull : Bool} {calls : Calls} {idx : PortId → Int} {now : Int32}
    {req : ErReqData} {m m' : Held} {ring : GlobalRing} (hvalid : validRpl req.toErReq = true)
    (h : createFor ignoresNull calls idx now req m = some (some ring, m')) :
    Made req (started req ring) := by
  obtain ⟨_, h₀, h₁⟩ := createFor_ring h
  have hring := started_ring h
  have ha := assigned now req.erId.toUInt16
    (if req.erRplOwner ≠ 0 then req.erRplPort.toUInt8 else erpsRplNone)
    (if req.erRplNeighbour ≠ 0 then req.erRplPort.toUInt8 else erpsRplNone) 2
    (rapsVidOf req.erRapsVid) (decide (req.erRevertive ≠ 0))
  rw [← hring] at ha
  refine ⟨hvalid, h₀, h₁, rfl, rfl, rfl, rfl, ?_, ?_, ?_, ?_, ?_, ?_, ?_⟩
  · rw [hring]
    rfl
  · rw [hring, erRingCreate_eq]
    show req.erId.toUInt16.toNat = req.erId.toNat
    simp
  · rw [hring]
    rfl
  · rw [hring]
    rfl
  · rw [ha.owner, role_eq]
    rfl
  · rw [ha.neighbour, role_eq]
    rfl
  · unfold Ring.rpl
    rw [ha.rplPort]
    exact rplPort_eq_assignedPort (validRpl_of hvalid)

/-- What it blocks is a matter of the request and of what has been heard. -/
theorem Made.blocked_iff {req : ErReqData} {ring : GlobalRing}
    {heard : List (RingRequest × NodeId)} (h : Made req ring) (hl : Listening ring.er.ring)
    (hh : Heard ring.er.ring heard) (p : PortId) :
    (ring.er.ring.port p).isBlocked = true ↔
      p = assignedPort req.toErReq ∧ StillBlocks req.toErReq heard := by
  rw [hh.blocked_iff hl, h.rpl, h.owner, h.neighbour]
  rfl

/-! ## Names -/

/-- What is left of a name in the 16 bytes of a port: 15 bytes at most, and zeros. -/
theorem portName_eq (name : List UInt8) :
    ∃ bytes, portName name = bytes ++ List.replicate (ifnamsiz - bytes.length) 0 ∧
      bytes.length < ifnamsiz ∧ ∀ b ∈ bytes, b ≠ 0 := by
  have hle : ((name.take ifnamsiz).takeWhile (· ≠ 0)).length ≤ ifnamsiz :=
    (List.takeWhile_prefix _).length_le.trans (by simp)
  have hne : ∀ b ∈ (name.take ifnamsiz).takeWhile (· ≠ 0), b ≠ 0 := by
    intro b hb
    simpa using List.all_eq_true.mp List.all_takeWhile b hb
  unfold portName strncpy
  generalize (name.take ifnamsiz).takeWhile (· ≠ 0) = bytes at hle hne
  by_cases hlen : bytes.length = ifnamsiz
  · -- the last byte makes room for the terminator
    refine ⟨bytes.take (ifnamsiz - 1), ?_, by simp [hlen, ifnamsiz],
      fun b hb => hne b (List.mem_of_mem_take hb)⟩
    rw [List.set_eq_take_append_cons_drop]
    simp [hlen, ifnamsiz]
  · refine ⟨bytes, ?_, by omega, hne⟩
    rw [List.set_append, if_neg (by omega), List.set_replicate_self]

/-- Copied once more it stays the same. -/
theorem strncpy_portName (name : List UInt8) : strncpy ifnamsiz (portName name) = portName name := by
  obtain ⟨bytes, heq, hlen, hne⟩ := portName_eq name
  rw [heq]
  unfold strncpy
  have htake : (bytes ++ List.replicate (ifnamsiz - bytes.length) 0).take ifnamsiz =
      bytes ++ List.replicate (ifnamsiz - bytes.length) 0 :=
    List.take_of_length_le (by simp; omega)
  have hwhile : (bytes ++ List.replicate (ifnamsiz - bytes.length) 0).takeWhile (· ≠ 0) = bytes := by
    rw [List.takeWhile_append_of_pos (by simpa using hne)]
    simp
  rw [htake, hwhile]

/-! ## The invariant -/

/-- The ring, if there is one, was made by the request on record and listens. -/
structure Attends (s : State) (l : Log) : Prop where
  unloaded : s.cdev = false → s.erGlobal = .none
  none : s.erGlobal = .none → l = .none
  live : ∀ ring, s.erGlobal = some ring → (∃ req, l.asked = some req ∧ Made req ring) ∧
    Listening ring.er.ring ∧ Heard ring.er.ring l.heard

namespace Attends

variable {env : Env} {s t : State} {l : Log} {e : Event}

theorem of_none (h : t.erGlobal = .none) : Attends t .none where
  unloaded _ := h
  none _ := rfl
  live ring hg := by
    rw [h] at hg
    cases hg

/-- A ring that has heard one more request. -/
theorem heard {ring : GlobalRing} (h : Attends s l) (hg : s.erGlobal = some ring)
    {request : RingRequest} {p : PortId} {id : NodeId} (hraps : request.isRaps = true)
    (hid : id ≠ ring.er.ring.cfg.nodeId) (now : Int32) {t : State} (hc : t.cdev = s.cdev)
    (ht : t.erGlobal = some { ring with er := { ring.er with
      ring := ringProcessRequest ring.er.ring now request (some p) (some id) } }) :
    Attends t { l with heard := l.heard ++ [(request, id)] } := by
  obtain ⟨⟨req, hasked, hmade⟩, hlistening, hheard⟩ := h.live ring hg
  rw [hlistening.nodeId] at hid
  refine ⟨?_, fun hn => by simp [hn] at ht, ?_⟩
  · intro hf
    rw [h.unloaded (hc.symm.trans hf)] at hg
    cases hg
  intro ring' hring
  rw [ht] at hring
  cases hring
  refine ⟨⟨req, hasked, ?_⟩, hlistening.process hraps hid now p,
    hheard.process hlistening hraps hid now p⟩
  have hcfg := hlistening.cfg_process hraps now p id
  exact { hmade with
    version := hcfg ▸ hmade.version, ringId := hcfg ▸ hmade.ringId, rapsVid := hcfg ▸ hmade.rapsVid
    revertive := hcfg ▸ hmade.revertive, owner := hcfg ▸ hmade.owner
    neighbour := hcfg ▸ hmade.neighbour
    rpl := by
      rw [Ring.rpl, hcfg]
      exact hmade.rpl }

theorem step (h : Attends s l) (hst : handle env s e = some t) : Attends t (l.after env s e t) := by
  have hlived := lived hst
  cases hlived with
  | loaded => exact of_none rfl
  | unloaded =>
    refine of_none ?_
    unfold erModuleFini erDestroyAllRings
    cases hg : s.erGlobal with
    | none => exact hg
    | some ring => rfl
  | @answered now cmd data calls idx =>
    have hsame : l.after env s (.ioctl now cmd data calls idx) s = l := by
      unfold Log.after
      cases cmd <;> cases data <;> cases s.erGlobal <;> rfl
    rw [hsame]
    exact h
  | unheard hc hg =>
    simp only [Log.after, hg, Option.bind_none, Option.map_none, Option.toList_none, List.append_nil]
    exact h
  | refused hc hg =>
    have hl := h.none hg
    simp only [Log.after, hg, Option.isSome_none, Bool.and_false, Bool.false_eq_true, if_false]
    rw [hl]
    exact of_none rfl
  | @inited now req calls idx ring held hc hg hvalid hcreate =>
    simp only [Log.after, hg, Option.isNone_none, Option.isSome_some, Bool.and_self, if_true]
    refine ⟨fun hf => ?_, fun hn => by simp at hn, ?_⟩
    · cases hc.symm.trans hf
    intro ring' hring
    cases hring
    refine ⟨⟨req, rfl, .started hvalid hcreate⟩, ?_⟩
    rw [started_ring hcreate]
    exact ⟨.configured .., .configured ..⟩
  | @received now rapsCreate bdgPort data ring hc hg =>
    have her := @erNetmapOnRecv_listening env.host env.hz now env.learning ring.er bdgPort data
      (h.live ring hg).2.1
    simp only [Log.after, hg, Option.bind_some]
    cases hreq : requestIn env.host ring.er bdgPort data with
    | none =>
      simp only [hreq] at her
      simp only [Option.map_none, Option.toList_none, List.append_nil]
      refine ⟨fun hf => ?_, fun hn => by simp [State.afterFrame] at hn, ?_⟩
      · cases hc.symm.trans hf
      intro ring' hring
      cases hring
      rw [her]
      exact h.live ring hg
    | some asked =>
      obtain ⟨request, p, id⟩ := asked
      obtain ⟨hraps, hid⟩ := requestIn_spec hreq
      simp only [hreq] at her
      refine h.heard hg hraps hid now (p := p) rfl ?_
      show some { ring with er := (Kernel.erNetmapOnRecv env.host env.hz now env.learning ring.er
        bdgPort data).2 } = _
      rw [her]

theorem of_reachable (h : (logged env).Reachable (s, l)) : Attends s l := by
  refine h.invariant (I := fun s => Attends s.1 s.2) ?_ ?_
  · intro s hs
    obtain ⟨hboot, hl⟩ := hs
    have hboot : s.1 = .boot := hboot
    rw [hboot, hl]
    exact of_none rfl
  · intro s e t _ hs hst
    rw [hst.2]
    exact hs.step hst.1

end Attends

/-! ## What it comes to -/

/-- The module of a plain node before it has heard anything, and once it has heard the R-APS(NR,RB) of
another one. It may hear more. -/
theorem exists_opened : ∃ s t ring₀ ring,
    (logged someEnv).Reachable (s, ⟨some plainRequest, []⟩) ∧ s.erGlobal = some ring₀ ∧
      recvPort ring₀.er 1 = some .port0 ∧
      (logged someEnv).Reachable (t, ⟨some plainRequest, [(.rapsNrRb, node2)]⟩) ∧
      t.erGlobal = some ring ∧ ring.er.ring.cfg.isRplNeighbour = false ∧ ring.er.ring.Open ∧
      (handle someEnv t (.recv 20 true 2 (nrFrame 0))).isSome = true := by
  have hsteps : ∃ a b c ring₀ ring, handle someEnv .boot (.load true) = some a ∧
      handle someEnv a (.ioctl 0 .init (some plainRequest) allWell someIdx) = some b ∧
      handle someEnv b (.recv 10 true 1 (nrFrame 0x80)) = some c ∧
      (Log.after someEnv b (.recv 10 true 1 (nrFrame 0x80)) c ⟨some plainRequest, []⟩) =
        ⟨some plainRequest, [(.rapsNrRb, node2)]⟩ ∧
      (Log.after someEnv a (.ioctl 0 .init (some plainRequest) allWell someIdx) b .none) =
        ⟨some plainRequest, []⟩ ∧
      b.erGlobal = some ring₀ ∧ recvPort ring₀.er 1 = some .port0 ∧ c.erGlobal = some ring ∧
      ring.er.ring.cfg.isRplNeighbour = false ∧
      ring.er.ring.port0.isBlocked = false ∧ ring.er.ring.port1.isBlocked = false ∧
      (handle someEnv c (.recv 20 true 2 (nrFrame 0))).isSome = true :=
    ⟨_, _, _, _, _, rfl, rfl, rfl, rfl, rfl, rfl, rfl, rfl, rfl, rfl, rfl, rfl⟩
  obtain ⟨a, b, c, ring₀, ring, ha, hb, hc, hheard, hasked, hg₀, hrecv, hg, hnb, hport0, hport1,
    hmore⟩ := hsteps
  have h₀ : (logged someEnv).Reachable (.boot, .none) := .init ⟨rfl, rfl⟩
  have h₁ : (logged someEnv).Reachable (a, .none) := h₀.step ⟨ha, rfl⟩
  have h₂ : (logged someEnv).Reachable (b, ⟨some plainRequest, []⟩) := h₁.step ⟨hb, hasked.symm⟩
  refine ⟨b, c, ring₀, ring, h₂, hg₀, hrecv, h₂.step ⟨hc, hheard.symm⟩, hg, hnb, ?_, hmore⟩
  intro p
  cases p with
  | port0 => exact hport0
  | port1 => exact hport1

section results

variable {env : Env} {s : State} {l : Log} {ring : GlobalRing}

/-- The times and the numbers of the ring are those a ring can have. -/
structure InBounds (ring : GlobalRing) : Prop where
  guardTime : 10 ≤ ring.guardTime ∧ ring.guardTime ≤ 2000
  wtrTime : 1 * 60000 ≤ ring.wtrTime ∧ ring.wtrTime ≤ 12 * 60000
  wtbTime : ring.wtbTime.toNat = ring.guardTime.toNat + 5000
  rapsVid : 1 ≤ ring.er.ring.cfg.rapsVid ∧ ring.er.ring.cfg.rapsVid < 4094
  version : ring.er.ring.cfg.version = 2

theorem guardTimeOf_bounds (t : UInt32) : 10 ≤ guardTimeOf t ∧ guardTimeOf t ≤ 2000 := by
  unfold guardTimeOf
  split
  · decide
  · rename_i h
    obtain ⟨hlow, hhigh⟩ := not_or.mp h
    exact ⟨UInt32.not_lt.mp hlow, UInt32.not_lt.mp hhigh⟩

theorem wtrTimeOf_bounds (t : UInt32) : 1 * 60000 ≤ wtrTimeOf t ∧ wtrTimeOf t ≤ 12 * 60000 := by
  unfold wtrTimeOf
  split
  · decide
  · rename_i h
    obtain ⟨hlow, hhigh⟩ := not_or.mp h
    exact ⟨UInt32.not_lt.mp hlow, UInt32.not_lt.mp hhigh⟩

theorem rapsVidOf_bounds (vid : UInt16) : 1 ≤ rapsVidOf vid ∧ rapsVidOf vid < 4094 := by
  unfold rapsVidOf
  split <;> omega

theorem Made.inBounds {req : ErReqData} (h : Made req ring) : InBounds ring where
  guardTime := h.guardTime ▸ guardTimeOf_bounds _
  wtrTime := h.wtrTime ▸ wtrTimeOf_bounds _
  wtbTime := by
    have hle := UInt32.le_iff_toNat_le.mp (guardTimeOf_bounds req.erGuardTime).2
    simp only [UInt32.reduceToNat] at hle
    rw [h.wtbTime, h.guardTime, UInt32.toNat_add]
    simp only [UInt32.reduceToNat]
    omega
  rapsVid := h.rapsVid ▸ rapsVidOf_bounds _
  version := h.version

/-- **A ring of the module only listens**, whatever is done to the module and whatever it receives. -/
theorem only_listens (h : (module env).Reachable s) (hg : s.erGlobal = some ring) :
    Listening ring.er.ring ∧ InBounds ring := by
  obtain ⟨l, hl⟩ : ∃ l, (logged env).Reachable (s, l) := h.history
  obtain ⟨⟨req, _, hmade⟩, hlistening, _⟩ := (Attends.of_reachable hl).live ring hg
  exact ⟨hlistening, hmade.inBounds⟩

theorem only_listens_plainRequest : ∃ (s : State) (ring : GlobalRing),
    (module someEnv).Reachable s ∧ s.erGlobal = some ring ∧ Listening ring.er.ring ∧
      InBounds ring := by
  obtain ⟨_, t, _, ring, _, _, _, h, hg, _⟩ := exists_opened
  exact ⟨t, ring, h.of_history, hg, only_listens h.of_history hg⟩

/-- A data frame changes nothing, and is held back on a blocked port only. -/
theorem erNetmapOnRecv_data (hg : s.erGlobal = some ring) (hactive : ring.er.active = true)
    {now : Int32} {rapsCreate : Bool} {bdgPort : Int} {data : List UInt8}
    (hdata : isRapsFrame data = false) :
    erNetmapOnRecv env.host env.hz now rapsCreate env.learning bdgPort data s =
      some (if (recvPort ring.er bdgPort).any ring.er.blocked then none
        else some (env.learning data bdgPort), s) := by
  obtain ⟨cdev, erGlobal, held, created, ignored⟩ := s
  obtain rfl : erGlobal = some ring := hg
  unfold erNetmapOnRecv erForwardLookup
  simp only [hactive, hdata, isKeepaliveFrame, Bool.not_true, Bool.false_eq_true, if_false]
  cases recvPort ring.er bdgPort with
  | none => rfl
  | some p =>
    cases hb : ring.er.blocked p <;> simp [hb]

/-- **Data frames are held back** on the port assigned by the ERIOCINIT, for as long as the ring has
heard nothing that opens it, and go on everywhere else. -/
theorem data_held_iff (h : (logged env).Reachable (s, l)) (hg : s.erGlobal = some ring) {now : Int32}
    {rapsCreate : Bool} {bdgPort : Int} {data : List UInt8} (hdata : isRapsFrame data = false) :
    ∃ req, l.asked = some req ∧
      erNetmapOnRecv env.host env.hz now rapsCreate env.learning bdgPort data s =
        some (if recvPort ring.er bdgPort = some (assignedPort req.toErReq) ∧
            StillBlocks req.toErReq l.heard then none else some (env.learning data bdgPort), s) := by
  obtain ⟨⟨req, hasked, hmade⟩, hlistening, hheard⟩ := (Attends.of_reachable h).live ring hg
  refine ⟨req, hasked, ?_⟩
  rw [erNetmapOnRecv_data hg hmade.active hdata]
  have hiff : (recvPort ring.er bdgPort).any ring.er.blocked = true ↔
      recvPort ring.er bdgPort = some (assignedPort req.toErReq) ∧
        StillBlocks req.toErReq l.heard := by
    cases recvPort ring.er bdgPort with
    | none => simp
    | some p =>
      rw [Option.any_some, Option.some.injEq]
      exact hmade.blocked_iff hlistening hheard p
  simp only [hiff]

/-- The node holds a frame back, until it has heard R-APS(NR,RB). -/
theorem data_held_plainRequest : ∃ s t,
    (logged someEnv).Reachable (s, ⟨some plainRequest, []⟩) ∧
      erNetmapOnRecv .little 1000 5 true someEnv.learning 1 dataFrame s = some (none, s) ∧
      (logged someEnv).Reachable (t, ⟨some plainRequest, [(.rapsNrRb, node2)]⟩) ∧
      erNetmapOnRecv .little 1000 20 true someEnv.learning 1 dataFrame t =
        some (some .broadcast, t) := by
  obtain ⟨s, t, ring₀, ring, hs, hg₀, hrecv, ht, hg, _⟩ := exists_opened
  refine ⟨s, t, hs, ?_, ht, ?_⟩
  · obtain ⟨req, hasked, heq⟩ := @data_held_iff _ _ _ _ hs hg₀ 5 true 1 dataFrame rfl
    cases hasked
    have hheld : StillBlocks plainRequest.toErReq [] := .inl rfl
    rwa [if_pos ⟨hrecv, hheld⟩] at heq
  · obtain ⟨req, hasked, heq⟩ := @data_held_iff _ _ _ _ ht hg 20 true 1 dataFrame rfl
    cases hasked
    have hopened : ¬ StillBlocks plainRequest.toErReq [(.rapsNrRb, node2)] := by decide
    rwa [if_neg (fun hheld => hopened hheld.2)] at heq

/-- While the module stays loaded it keeps its ring, and its record only grows. -/
theorem Attends.keeps (h : Attends s l) (hg : s.erGlobal = some ring) {e : Event} {t : State}
    (hst : handle env s e = some t) (he : e ≠ .unload) :
    ∃ ring', t.erGlobal = some ring' ∧ ring'.er.ring.cfg = ring.er.ring.cfg ∧
      ∃ more, (l.after env s e t).heard = l.heard ++ more ∧ more.length ≤ 1 := by
  have hlived := lived hst
  cases hlived with
  | loaded makeDev hc =>
    rw [h.unloaded hc] at hg
    cases hg
  | unloaded => exact absurd rfl he
  | @answered now cmd data calls idx =>
    refine ⟨ring, hg, rfl, [], ?_, by simp⟩
    unfold Log.after
    cases cmd <;> cases data <;> simp [hg]
  | unheard _ hn | refused _ hn | inited _ hn =>
    rw [hn] at hg
    cases hg
  | @received now rapsCreate bdgPort data ring' hc hg' =>
    obtain rfl : ring' = ring := Option.some.inj (hg'.symm.trans hg)
    obtain ⟨_, hlistening, _⟩ := h.live ring' hg
    refine ⟨_, rfl, ?_, _, rfl, Option.length_toList_le⟩
    rw [erNetmapOnRecv_listening hlistening]
    cases hreq : requestIn env.host ring'.er bdgPort data with
    | none => rfl
    | some asked =>
      obtain ⟨request, p, id⟩ := asked
      obtain ⟨hraps, _⟩ := requestIn_spec hreq
      exact hlistening.cfg_process hraps now p id

/-- **A block is not taken back** by a ring that is not the RPL neighbour, the RPL owner included: once
its ports are open they stay open until the module is unloaded. -/
theorem open_for_good (h : (module env).Reachable s) (hg : s.erGlobal = some ring)
    (hnb : ring.er.ring.cfg.isRplNeighbour = false) (ho : ring.er.ring.Open) {es : List Event}
    {t : State} (hes : .unload ∉ es) (hrun : (module env).Run s es t) :
    ∃ ring', t.erGlobal = some ring' ∧ ring'.er.ring.Open := by
  obtain ⟨l, hl⟩ : ∃ l, (logged env).Reachable (s, l) := h.history
  have hs := Attends.of_reachable hl
  -- what it has heard has opened it, and will always have
  have hopened : ¬ KeepsBlock ring.er.ring.cfg.isRplOwner (l.heard.map Prod.fst) := by
    rw [← (hs.live ring hg).2.2.elsewhere hnb, ho]
    simp
  have hkept : ∃ l ring', Attends t l ∧ t.erGlobal = some ring' ∧
      ring'.er.ring.cfg = ring.er.ring.cfg ∧
      ¬ KeepsBlock ring.er.ring.cfg.isRplOwner (l.heard.map Prod.fst) := by
    induction hrun with
    | nil => exact ⟨l, ring, hs, hg, rfl, hopened⟩
    | @snoc es t u e _ hst ih =>
      obtain ⟨l, ring₁, ht, hg₁, hcfg, hopened⟩ := ih (fun h => hes (List.mem_append_left _ h))
      have he : e ≠ .unload := fun h => hes (by simp [h])
      obtain ⟨ring₂, hg₂, hcfg₂, more, hmore, hlen⟩ := ht.keeps hg₁ hst he
      refine ⟨_, ring₂, ht.step hst, hg₂, hcfg₂.trans hcfg, ?_⟩
      rw [hmore, List.map_append]
      match more, hlen with
      | [], _ => simpa using hopened
      | [q], _ => exact fun hk => hopened (KeepsBlock.append_iff.mp hk).1
  obtain ⟨l, ring', ht, hg', hcfg, hopened⟩ := hkept
  obtain ⟨_, hlistening, hheard⟩ := ht.live ring' hg'
  refine ⟨ring', hg', ?_⟩
  intro p
  apply Bool.eq_false_iff.mpr
  intro hb
  obtain ⟨_, hholds⟩ := (hheard.blocked_iff hlistening p).mp hb
  unfold HoldsBlock at hholds
  rw [hcfg, hnb] at hholds
  exact hopened (by simpa using hholds)

/-- What that node hears next leaves it open. -/
theorem open_for_good_plainRequest : ∃ (s t : State) (ring ring' : GlobalRing),
    (module someEnv).Reachable s ∧ s.erGlobal = some ring ∧ ring.er.ring.Open ∧
      (module someEnv).Run s [.recv 20 true 2 (nrFrame 0)] t ∧ t.erGlobal = some ring' ∧
      ring'.er.ring.Open := by
  obtain ⟨_, s, _, ring, _, _, _, h, hg, hnb, ho, hmore⟩ := exists_opened
  obtain ⟨t, ht⟩ := Option.isSome_iff_exists.mp hmore
  have hrun : (module someEnv).Run s ([] ++ [.recv 20 true 2 (nrFrame 0)]) t := Lts.Run.nil.snoc ht
  obtain ⟨ring', hg', ho'⟩ := open_for_good h.of_history hg hnb ho (by simp) hrun
  exact ⟨s, t, ring, ring', h.of_history, hg, ho, hrun, hg', ho'⟩

/-- **ERIOCSTATUS** answers with what the ring was asked for, and with the block that is left of it. -/
theorem status_tells (h : (logged env).Reachable (s, l)) (hg : s.erGlobal = some ring)
    (calls : Calls) (idx : PortId → Int) (now : Int32) (data : ErReqData) :
    ∃ req, l.asked = some req ∧
      erIoctl env.ignoresNull calls idx now .status (some data) s = some (.ok, some
        { data with
          erPort0 := portName req.erPort0
          erPort1 := portName req.erPort1
          erPort0Failed := 0
          erPort1Failed := 0
          erPort0Blocked := flag (decide (assignedPort req.toErReq = .port0 ∧
            StillBlocks req.toErReq l.heard))
          erPort1Blocked := flag (decide (assignedPort req.toErReq = .port1 ∧
            StillBlocks req.toErReq l.heard))
          erRplOwner := flag (asOwner req.toErReq)
          erRplNeighbour := flag (asNeighbour req.toErReq) }, s) := by
  obtain ⟨⟨req, hasked, hmade⟩, hlistening, hheard⟩ := (Attends.of_reachable h).live ring hg
  refine ⟨req, hasked, ?_⟩
  have hb : ∀ p, (ring.er.ring.port p).isBlocked = decide (assignedPort req.toErReq = p ∧
      StillBlocks req.toErReq l.heard) := by
    intro p
    rw [Bool.eq_iff_iff, hmade.blocked_iff hlistening hheard, decide_eq_true_iff, eq_comm]
  have h₀ := hb .port0
  have h₁ := hb .port1
  have hf₀ := hlistening.healthy .port0
  have hf₁ := hlistening.healthy .port1
  simp only [Ring.port] at h₀ h₁ hf₀ hf₁
  simp only [erIoctl, hg, erIoctlStatus, hmade.port0_name, hmade.port1_name, strncpy_portName, hf₀,
    hf₁, h₀, h₁, hmade.owner, hmade.neighbour]
  rfl

/-- The node has the ports it was given, and the first is blocked until it has heard R-APS(NR,RB). -/
theorem status_tells_plainRequest : ∃ s t before after,
    (logged someEnv).Reachable (s, ⟨some plainRequest, []⟩) ∧
      erIoctl true allWell someIdx 5 .status (some plainRequest) s = some (.ok, some before, s) ∧
      before.erPort0 = portName [97] ∧ before.erPort0Blocked = 1 ∧
      (logged someEnv).Reachable (t, ⟨some plainRequest, [(.rapsNrRb, node2)]⟩) ∧
      erIoctl true allWell someIdx 30 .status (some plainRequest) t = some (.ok, some after, t) ∧
      after.erPort0 = portName [97] ∧ after.erPort0Blocked = 0 := by
  obtain ⟨s, t, _, _, hs, hg₀, _, ht, hg, _⟩ := exists_opened
  obtain ⟨_, hasked₀, heq₀⟩ := status_tells hs hg₀ allWell someIdx 5 plainRequest
  obtain ⟨_, hasked, heq⟩ := status_tells ht hg allWell someIdx 30 plainRequest
  cases hasked₀
  cases hasked
  exact ⟨s, t, _, _, hs, heq₀, rfl, by decide, ht, heq, rfl, by decide⟩

end results

end Erps.Kernel.Life
