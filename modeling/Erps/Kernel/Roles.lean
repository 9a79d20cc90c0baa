import Erps.Kernel.Ioctl

/-!
# The role that was asked for

ERIOCINIT names a role and a port. The check looks at the 16 bits of `er_rpl_port` and only asks
whether they are zero; `er_ring_create` sees the low 8 of them, takes 0 for no role at all and anything
but 1 for `port1`. Between the two, a port that is neither ERPS_RPL_PORT0 nor ERPS_RPL_PORT1 gets
through, and the ring plays some other role or none.
-/

set_option autoImplicit false

namespace Erps.Kernel

/-- `ERPS_RPL_PORT0` and `ERPS_RPL_PORT1`. -/
def erpsRplPort : PortId → UInt16
  | .port0 => 1
  | .port1 => 2

/-- The ring has the role of the request and blocks the port that belongs to it. -/
structure PlaysRole (req : ErReq) (r : Ring Int32) : Prop where
  owner : r.cfg.isRplOwner = true ↔ req.erRplOwner ≠ 0
  neighbour : r.cfg.isRplNeighbour = true ↔ req.erRplNeighbour ≠ 0
  not_both : ¬ (r.cfg.isRplOwner = true ∧ r.cfg.isRplNeighbour = true)
  rplPort : r.cfg.isRplOwner = true ∨ r.cfg.isRplNeighbour = true →
    ∃ p, req.erRplPort = erpsRplPort p ∧ r.cfg.rplPort = some p
  no_rplPort : r.cfg.isRplOwner = false → r.cfg.isRplNeighbour = false → r.cfg.rplPort = none
  blocksOnly : r.BlocksOnly (r.cfg.rplPort.getD .port0)

/-- What a request that passes the check looks like: it names no role and no port, or one role and
some port. -/
inductive ValidRpl (req : ErReq) : Prop
  | plain (ho : req.erRplOwner = 0) (hn : req.erRplNeighbour = 0) (hp : req.erRplPort = 0)
  | owner (ho : req.erRplOwner ≠ 0) (hn : req.erRplNeighbour = 0) (hp : req.erRplPort ≠ 0)
  | neighbour (ho : req.erRplOwner = 0) (hn : req.erRplNeighbour ≠ 0) (hp : req.erRplPort ≠ 0)

theorem validRpl_of {req : ErReq} (h : validRpl req = true) : ValidRpl req := by
  unfold validRpl at h
  split at h
  · cases h
  · rename_i hboth
    split at h
    · rename_i hnone
      exact .plain hnone.1 hnone.2 (by simpa [erpsRplNone] using h)
    · rename_i hone
      have hp : req.erRplPort ≠ 0 := by simpa [erpsRplNone] using h
      by_cases ho : req.erRplOwner = 0
      · exact .neighbour ho (fun hn => hone ⟨ho, hn⟩) hp
      · exact .owner ho (by simpa using fun hn => hboth ⟨ho, hn⟩) hp

variable {req : ErReq} {r : Ring Int32}

theorem Initialised.validRpl (h : Initialised req r) : ValidRpl req := by
  obtain ⟨openPort, now, er, h, rfl⟩ := h
  unfold erIoctlInit at h
  rw [if_neg (by simp)] at h
  split at h
  · cases h
  · rename_i hvalid
    exact validRpl_of (by simpa using hvalid)

/-- The role `er_ring_create` reads out of the two bytes it is given, and the port it blocks. -/
structure Assigned (rplOwner rplNeighbour : UInt8) (r : Ring Int32) : Prop where
  owner : r.cfg.isRplOwner = (rplOwner != 0)
  neighbour : r.cfg.isRplNeighbour = (rplNeighbour != 0)
  rplPort : r.cfg.rplPort =
    if rplNeighbour != 0 then some (rplPortOf rplNeighbour)
    else if rplOwner != 0 then some (rplPortOf rplOwner) else none
  blocksOnly : r.BlocksOnly (r.cfg.rplPort.getD .port0)

theorem assigned (now : Int32) (ringId : UInt16) (rplOwner rplNeighbour version : UInt8)
    (rapsVid : Nat) (isRevertive : Bool) :
    Assigned rplOwner rplNeighbour
      (configure (erRingCreate now ringId rplOwner rplNeighbour) version rapsVid isRevertive) := by
  rw [erRingCreate_eq]
  have hb := blank_ringBlank ringId rplOwner rplNeighbour
  have howner : (ringBlank ringId rplOwner rplNeighbour).cfg.isRplOwner = (rplOwner != 0) := by
    by_cases ho : rplOwner = 0 <;> simp [ringBlank, erpsRplNone, ho]
  have hneighbour : (ringBlank ringId rplOwner rplNeighbour).cfg.isRplNeighbour =
      (rplNeighbour != 0) := by
    by_cases hn : rplNeighbour = 0 <;> simp [ringBlank, erpsRplNone, hn]
  refine ⟨howner, hneighbour, ?_, ?_⟩
  · show (ringBlank ringId rplOwner rplNeighbour).cfg.rplPort = _
    by_cases ho : rplOwner = 0 <;> by_cases hn : rplNeighbour = 0 <;>
      simp [ringBlank, erpsRplNone, ho, hn]
  · have hstart : (ringBlank ringId rplOwner rplNeighbour).startPort =
        (ringBlank ringId rplOwner rplNeighbour).cfg.rplPort.getD .port0 := by
      unfold Ring.startPort Ring.rpl
      split
      · rfl
      · rename_i hnone
        have hset := hb.rplSet
        unfold Config.RplSet at hset
        rw [Bool.eq_false_iff.mpr hnone, Option.isSome_eq_false_iff, Option.isNone_iff_eq_none]
          at hset
        rw [hset]
        rfl
    have hblock := (ringBlank ringId rplOwner rplNeighbour).started_blocksOnly now
    rw [hstart] at hblock
    exact hblock

theorem Initialised.assigned (h : Initialised req r) :
    Assigned (if req.erRplOwner ≠ 0 then req.erRplPort.toUInt8 else erpsRplNone)
      (if req.erRplNeighbour ≠ 0 then req.erRplPort.toUInt8 else erpsRplNone) r := by
  obtain ⟨now, rfl⟩ := h.exists_create
  exact Kernel.assigned _ _ _ _ _ _ _

/-- A role with one of the two ports comes through the narrowing. -/
theorem PlaysRole.of_port {p : PortId} (ha : Assigned
      (if req.erRplOwner ≠ 0 then req.erRplPort.toUInt8 else erpsRplNone)
      (if req.erRplNeighbour ≠ 0 then req.erRplPort.toUInt8 else erpsRplNone) r)
    (hone : ¬ (req.erRplOwner = 0 ↔ req.erRplNeighbour = 0)) (hp : req.erRplPort = erpsRplPort p) :
    PlaysRole req r := by
  have hnarrow : ((erpsRplPort p).toUInt8 != 0) = true := by cases p <;> rfl
  have hport : rplPortOf (erpsRplPort p).toUInt8 = p := by cases p <;> rfl
  obtain ⟨howner, hneighbour, hrpl, hblock⟩ := ha
  rw [hp] at howner hneighbour hrpl
  by_cases ho : req.erRplOwner = 0 <;> by_cases hn : req.erRplNeighbour = 0
  · exact absurd (iff_of_true ho hn) hone
  · have howner : r.cfg.isRplOwner = false := by simpa [ho, erpsRplNone] using howner
    have hneighbour : r.cfg.isRplNeighbour = true := by
      rw [hneighbour, if_pos hn]
      exact hnarrow
    have hrpl : r.cfg.rplPort = some p := by
      rw [hrpl, if_pos hn, if_pos hnarrow, hport]
    exact ⟨by simp [howner, ho], by simp [hneighbour, hn], by simp [howner],
      fun _ => ⟨p, hp, hrpl⟩, fun _ h => absurd h (by simp [hneighbour]), hblock⟩
  · have howner : r.cfg.isRplOwner = true := by
      rw [howner, if_pos ho]
      exact hnarrow
    have hneighbour : r.cfg.isRplNeighbour = false := by simpa [hn, erpsRplNone] using hneighbour
    have hrpl : r.cfg.rplPort = some p := by
      rw [hrpl, if_neg (not_not.mpr hn), if_pos ho, if_neg (by simp [erpsRplNone]), if_pos hnarrow,
        hport]
    exact ⟨by simp [howner, ho], by simp [hneighbour, hn], by simp [hneighbour],
      fun _ => ⟨p, hp, hrpl⟩, fun h => absurd h (by simp [howner]), hblock⟩
  · exact absurd (iff_of_false ho hn) hone

/-- **The role comes through** exactly if none was asked for, or the port is one of the two there
are. -/
theorem playsRole_iff (h : Initialised req r) :
    PlaysRole req r ↔ (req.erRplOwner = 0 ∧ req.erRplNeighbour = 0) ∨
      ∃ p, req.erRplPort = erpsRplPort p := by
  have ha := h.assigned
  cases h.validRpl with
  | plain ho hn hp =>
    rw [ho, hn] at ha
    refine iff_of_true ?_ (.inl ⟨ho, hn⟩)
    have howner : r.cfg.isRplOwner = false := ha.owner
    have hneighbour : r.cfg.isRplNeighbour = false := ha.neighbour
    refine ⟨?_, ?_, ?_, ?_, fun _ _ => ha.rplPort, ha.blocksOnly⟩
    · simp [howner, ho]
    · simp [hneighbour, hn]
    · simp [howner]
    · simp [howner, hneighbour]
  | owner ho hn hp =>
    constructor
    · intro h
      obtain ⟨p, hp, _⟩ := h.rplPort (.inl (h.owner.mpr ho))
      exact .inr ⟨p, hp⟩
    · intro h
      rcases h with ⟨ho', _⟩ | ⟨p, hp⟩
      · exact absurd ho' ho
      · exact .of_port ha (fun h => ho (h.mpr hn)) hp
  | neighbour ho hn hp =>
    constructor
    · intro h
      obtain ⟨p, hp, _⟩ := h.rplPort (.inr (h.neighbour.mpr hn))
      exact .inr ⟨p, hp⟩
    · intro h
      rcases h with ⟨_, hn'⟩ | ⟨p, hp⟩
      · exact absurd hn' hn
      · exact .of_port ha (fun h => hn (h.mp ho)) hp

/-- A request for the RPL owner on this port. -/
def ownerReq (rplPort : UInt16) : ErReq :=
  { plainReq 1 100 with erRplOwner := 1, erRplPort := rplPort }

/-- The owner of port1 is one. -/
theorem playsRole_ownerReq :
    ∃ r, Initialised (ownerReq 2) r ∧ PlaysRole (ownerReq 2) r := by
  have h : Initialised (ownerReq 2) _ := ⟨plainPorts, 0, _, rfl, rfl⟩
  exact ⟨_, h, (playsRole_iff h).mpr (.inr ⟨.port1, rfl⟩)⟩

/-- The owner of port 256 is none. -/
theorem playsRole_counterexample :
    ¬ ∀ (req : ErReq) (r : Ring Int32), Initialised req r → PlaysRole req r := by
  intro h
  have hplays := h (ownerReq 256) _ ⟨plainPorts, 0, _, rfl, rfl⟩
  have howner := hplays.owner.mpr (by simp [ownerReq])
  cases howner

end Erps.Kernel
