import Erps.Kernel.Record
import Erps.Sim.Node

/-!
# The command lines

`ringd` and `erps-ctl init` learn the role of their node in the same way, `-o port` for the RPL owner and
`-n port` for the RPL neighbour, and compare the port with the two names that follow. What they refuse
differs: `ringd` checks everything itself (`ringd_starts`), `erps-ctl` leaves most of it to ERIOCINIT
(`ctl_plays`). Between the two halves of the kernel's configuration nothing gets lost any more, if
`erps-ctl` is all that asks for rings; but for times, VID and reversion it has no options.

`getopt` and `sscanf` are the C library's. What the one yields is the input here, what the other leaves
in `mac` the parameter `scan`.
-/

set_option autoImplicit false

namespace Erps.CommandLine

open Kernel Kernel.Life Kernel.Create

/-! ## Options -/

/-- What `getopt` yields. -/
inductive Opt
  | o (optarg : List UInt8)
  | n (optarg : List UInt8)
  | i (optarg : List UInt8)
  | h
  /-- an option that is none, or lacks its argument -/
  | unknown
  deriving DecidableEq, Repr

/-- `is_rpl_owner`, `is_rpl_neighbour` and `rpl_port`. -/
structure RplOptions where
  isRplOwner : Bool
  isRplNeighbour : Bool
  rplPort : Option (List UInt8)

namespace RplOptions

def none : RplOptions := ⟨false, false, .none⟩

/-- The cases `'o'` and `'n'` of both option loops. -/
def take (s : RplOptions) : Opt → RplOptions
  | .o optarg => { s with isRplOwner := true, rplPort := some optarg }
  | .n optarg => { s with isRplNeighbour := true, rplPort := some optarg }
  | _ => s

end RplOptions

/-- The port an option names. -/
def Opt.rplPort : Opt → Option (List UInt8)
  | .o optarg | .n optarg => some optarg
  | _ => none

/-- A role comes with a port. -/
theorem isSome_lastPort_iff {opts : List Opt} :
    (opts.filterMap Opt.rplPort).getLast?.isSome = true ↔
      (∃ optarg, .o optarg ∈ opts) ∨ ∃ optarg, .n optarg ∈ opts := by
  rw [Option.isSome_iff_exists]
  constructor
  · intro hport
    obtain ⟨port, hport⟩ := hport
    obtain ⟨opt, hmem, hopt⟩ := List.mem_filterMap.mp (List.mem_of_getLast? hport)
    cases opt with
    | o optarg => exact .inl ⟨optarg, hmem⟩
    | n optarg => exact .inr ⟨optarg, hmem⟩
    | i optarg | h | unknown => cases hopt
  · intro hrole
    have hmem : ∃ port, port ∈ opts.filterMap Opt.rplPort := by
      rcases hrole with ⟨optarg, hmem⟩ | ⟨optarg, hmem⟩
      · exact ⟨optarg, List.mem_filterMap.mpr ⟨_, hmem, rfl⟩⟩
      · exact ⟨optarg, List.mem_filterMap.mpr ⟨_, hmem, rfl⟩⟩
    obtain ⟨port, hmem⟩ := hmem
    exact ⟨_, List.getLast?_eq_some_getLast (List.ne_nil_of_mem hmem)⟩

/-- What the options ask for: whether there is a `-o`, whether there is a `-n`, and the port of the last of
them. -/
structure Asked (opts : List Opt) (s : RplOptions) : Prop where
  owner : s.isRplOwner = true ↔ ∃ optarg, .o optarg ∈ opts
  neighbour : s.isRplNeighbour = true ↔ ∃ optarg, .n optarg ∈ opts
  rplPort : s.rplPort = (opts.filterMap Opt.rplPort).getLast?

namespace Asked

variable {opts : List Opt} {s : RplOptions}

theorem nil : Asked [] .none := ⟨by simp [RplOptions.none], by simp [RplOptions.none], rfl⟩

theorem snoc (h : Asked opts s) (opt : Opt) : Asked (opts ++ [opt]) (s.take opt) := by
  obtain ⟨howner, hneighbour, hport⟩ := h
  cases opt with
  | o optarg =>
    refine ⟨?_, ?_, ?_⟩
    · simp [RplOptions.take]
    · simpa [RplOptions.take] using hneighbour
    · simp [RplOptions.take, Opt.rplPort]
  | n optarg =>
    refine ⟨?_, ?_, ?_⟩
    · simpa [RplOptions.take] using howner
    · simp [RplOptions.take]
    · simp [RplOptions.take, Opt.rplPort]
  | i optarg | h | unknown =>
    refine ⟨?_, ?_, ?_⟩
    · simpa [RplOptions.take] using howner
    · simpa [RplOptions.take] using hneighbour
    · simpa [RplOptions.take, Opt.rplPort] using hport

theorem isSome_eq (h : Asked opts s) :
    s.rplPort.isSome = (s.isRplOwner || s.isRplNeighbour) := by
  rw [Bool.eq_iff_iff, Bool.or_eq_true, h.owner, h.neighbour, h.rplPort, isSome_lastPort_iff]

end Asked

/-! ## `ringd` -/

/-- The option loop of `main`; `none` is `exit_usage`. -/
def ringdOptions : List Opt → RplOptions → Option RplOptions
  | [], s => some s
  | .o optarg :: opts, s => ringdOptions opts (s.take (.o optarg))
  | .n optarg :: opts, s => ringdOptions opts (s.take (.n optarg))
  | _ :: _, _ => none

/-- `main` up to `ring_create`, with the arguments of that: the RPL port, the two roles, and the node
id. -/
def ringdMain (scan : List UInt8 → NodeId) (opts : List Opt) (args : List (List UInt8)) :
    Option (Option PortId × Bool × Bool × NodeId) :=
  match ringdOptions opts .none with
  | none => none
  | some s =>
    match args with
    | [port0Name, port1Name, nodeIdStr] =>
      -- "node_id is in invalid format"
      if nodeIdStr.length ≠ 17 then none
      -- "RPL ports must differ"
      else if port0Name = port1Name then none
      -- "node cannot be RPL owner and neighbor at a same time"
      else if s.isRplOwner && s.isRplNeighbour then none
      -- "RPL port must be either [port0] or [port1]"
      else if (s.isRplOwner || s.isRplNeighbour) && decide (some port0Name ≠ s.rplPort) &&
          decide (some port1Name ≠ s.rplPort) then none
      else
        let rplPort :=
          if s.isRplOwner || s.isRplNeighbour then
            if some port0Name = s.rplPort then some .port0 else some .port1
          else none
        some (rplPort, s.isRplOwner, s.isRplNeighbour, scan nodeIdStr)
    -- "missing arguments"
    | _ => none

/-- Of the two names, the one of this port. -/
def nameOf (port0Name port1Name : List UInt8) : PortId → List UInt8
  | .port0 => port0Name
  | .port1 => port1Name

/-- A command line as the usage has it. -/
structure Proper (opts : List Opt) (args : List (List UInt8)) : Prop where
  known : ∀ opt ∈ opts, opt.rplPort.isSome = true
  one : ¬ ((∃ optarg, .o optarg ∈ opts) ∧ ∃ optarg, .n optarg ∈ opts)
  args : ∃ port0Name port1Name nodeIdStr, args = [port0Name, port1Name, nodeIdStr] ∧
    nodeIdStr.length = 17 ∧ port0Name ≠ port1Name ∧
    ∀ port, (opts.filterMap Opt.rplPort).getLast? = some port → port = port0Name ∨ port = port1Name

/-- The tests of `main` are the usage. -/
theorem ringdMain_isSome_iff {scan : List UInt8 → NodeId} {opts : List Opt}
    {args : List (List UInt8)} {s : RplOptions} (hs : ringdOptions opts .none = some s)
    (ha : Asked opts s) (hknown : ∀ opt ∈ opts, opt.rplPort.isSome = true) :
    (ringdMain scan opts args).isSome = true ↔ Proper opts args := by
  have hone : (s.isRplOwner && s.isRplNeighbour) = true ↔
      (∃ optarg, .o optarg ∈ opts) ∧ ∃ optarg, .n optarg ∈ opts := by
    rw [Bool.and_eq_true, ha.owner, ha.neighbour]
  constructor
  · intro h
    rw [Option.isSome_iff_exists] at h
    obtain ⟨_, hmain⟩ := h
    unfold ringdMain at hmain
    rw [hs] at hmain
    simp only at hmain
    split at hmain
    · rename_i port0Name port1Name nodeIdStr
      split at hmain
      · cases hmain
      · rename_i hlen
        split at hmain
        · cases hmain
        · rename_i hne
          split at hmain
          · cases hmain
          · rename_i hboth
            split at hmain
            · cases hmain
            · rename_i hport
              refine ⟨hknown, fun h => hboth (hone.mpr h), port0Name, port1Name, nodeIdStr, rfl,
                not_not.mp hlen, hne, ?_⟩
              intro port hlast
              rw [← ha.rplPort] at hlast
              have hrole : (s.isRplOwner || s.isRplNeighbour) = true := by
                rw [← ha.isSome_eq, hlast]
                rfl
              simp only [hrole, hlast, Option.some.injEq, Bool.true_and, Bool.and_eq_true,
                decide_eq_true_eq, not_and, not_not] at hport
              by_cases h₀ : port0Name = port
              · exact .inl h₀.symm
              · exact .inr (hport fun h => h₀ (Option.some.inj h)).symm
    · cases hmain
  · intro h
    obtain ⟨_, hboth, port0Name, port1Name, nodeIdStr, rfl, hlen, hne, hports⟩ := h
    have hboth : ¬ (s.isRplOwner && s.isRplNeighbour) = true := fun h => hboth (hone.mp h)
    have hport : ¬ ((s.isRplOwner || s.isRplNeighbour) && decide (some port0Name ≠ s.rplPort) &&
        decide (some port1Name ≠ s.rplPort)) = true := by
      intro h
      simp only [Bool.and_eq_true, decide_eq_true_eq, ne_eq] at h
      obtain ⟨⟨hrole, h₀⟩, h₁⟩ := h
      rw [← ha.isSome_eq] at hrole
      obtain ⟨port, hlast⟩ := Option.isSome_iff_exists.mp hrole
      rcases hports port (ha.rplPort ▸ hlast) with rfl | rfl
      · exact h₀ hlast.symm
      · exact h₁ hlast.symm
    unfold ringdMain
    rw [hs]
    simp only
    rw [if_neg (not_not.mpr hlen), if_neg hne, if_neg hboth, if_neg hport]
    rfl

/-- What `main` hands over. -/
theorem ringdMain_eq {scan : List UInt8 → NodeId} {opts : List Opt}
    {args : List (List UInt8)} {s : RplOptions} (hs : ringdOptions opts .none = some s)
    {rplPort : Option PortId} {isRplOwner isRplNeighbour : Bool} {nodeId : NodeId}
    (h : ringdMain scan opts args = some (rplPort, isRplOwner, isRplNeighbour, nodeId)) :
    isRplOwner = s.isRplOwner ∧ isRplNeighbour = s.isRplNeighbour ∧
      (isRplOwner && isRplNeighbour) = false ∧
      ∃ port0Name port1Name nodeIdStr, args = [port0Name, port1Name, nodeIdStr] ∧
        if isRplOwner || isRplNeighbour then
          ∃ p, rplPort = some p ∧ s.rplPort = some (nameOf port0Name port1Name p)
        else rplPort = none := by
  unfold ringdMain at h
  rw [hs] at h
  simp only at h
  split at h
  · rename_i port0Name port1Name nodeIdStr
    split at h
    · cases h
    · split at h
      · cases h
      · split at h
        · cases h
        · rename_i hone
          split at h
          · cases h
          · rename_i hport
            cases h
            refine ⟨rfl, rfl, Bool.eq_false_iff.mpr hone, port0Name, port1Name, nodeIdStr, rfl, ?_⟩
            cases hrole : s.isRplOwner || s.isRplNeighbour with
            | false => simp
            | true =>
              by_cases h₀ : some port0Name = s.rplPort
              · exact ⟨.port0, by simp [h₀], h₀.symm⟩
              · have h₁ : some port1Name = s.rplPort := by simpa [hrole, h₀] using hport
                exact ⟨.port1, by simp [h₀], h₁.symm⟩
  · cases h

theorem ringdOptions_spec (opts : List Opt) {before : List Opt} {s : RplOptions}
    (h : Asked before s) :
    (∃ s', ringdOptions opts s = some s' ∧ Asked (before ++ opts) s' ∧
        ∀ opt ∈ opts, opt.rplPort.isSome = true) ∨
      (ringdOptions opts s = none ∧ ∃ opt ∈ opts, opt.rplPort.isSome = false) := by
  induction opts generalizing before s with
  | nil => exact .inl ⟨s, rfl, by simpa using h, by simp⟩
  | cons opt opts ih =>
    have hnext := ih (h.snoc opt)
    rw [List.append_assoc, List.singleton_append] at hnext
    cases opt with
    | i optarg | h | unknown => exact .inr ⟨rfl, _, List.mem_cons_self, rfl⟩
    | o optarg | n optarg =>
      rcases hnext with ⟨s', hs, ha, hall⟩ | ⟨hs, opt, hmem, hopt⟩
      · refine .inl ⟨s', hs, ha, ?_⟩
        intro opt hmem
        rcases List.mem_cons.mp hmem with rfl | hmem
        · rfl
        · exact hall opt hmem
      · exact .inr ⟨hs, opt, List.mem_cons_of_mem _ hmem, hopt⟩

/-- **`ringd` starts** on the command lines of its usage and on no others, with a ring as `ring_create`
makes them for one of the roles there are; it is the role of the options, and the port that is blocked is
the one named last. -/
theorem ringd_starts (scan : List UInt8 → NodeId) (opts : List Opt) (args : List (List UInt8))
    (now : UInt64) :
    ((ringdMain scan opts args).isSome = true ↔ Proper opts args) ∧
      ∀ rplPort isRplOwner isRplNeighbour nodeId,
        ringdMain scan opts args = some (rplPort, isRplOwner, isRplNeighbour, nodeId) →
        ∃ r, Sim.ringCreate now rplPort isRplOwner isRplNeighbour nodeId = some r ∧ Sim.Created r ∧
          (r.cfg.isRplOwner = true ↔ ∃ optarg, .o optarg ∈ opts) ∧
          (r.cfg.isRplNeighbour = true ↔ ∃ optarg, .n optarg ∈ opts) ∧
          (∀ port, (opts.filterMap Opt.rplPort).getLast? = some port →
            ∃ port0Name port1Name nodeIdStr, args = [port0Name, port1Name, nodeIdStr] ∧
              port = nameOf port0Name port1Name r.rpl) ∧
          r.BlocksOnly r.rpl := by
  rcases ringdOptions_spec opts Asked.nil with ⟨s, hs, ha, hknown⟩ | ⟨hs, opt, hmem, hopt⟩
  · rw [List.nil_append] at ha
    refine ⟨ringdMain_isSome_iff hs ha hknown, ?_⟩
    intro rplPort isRplOwner isRplNeighbour nodeId h
    obtain ⟨rfl, rfl, hone, port0Name, port1Name, nodeIdStr, hargs, hport⟩ := ringdMain_eq hs h
    have hsome : rplPort.isSome = (s.isRplOwner || s.isRplNeighbour) := by
      split at hport
      · rename_i hrole
        obtain ⟨p, rfl, _⟩ := hport
        exact hrole.symm
      · rename_i hrole
        rw [hport]
        exact (Bool.eq_false_iff.mpr hrole).symm
    have hcreate := Sim.ringCreate_eq now ⟨rplPort, s.isRplOwner, s.isRplNeighbour, hsome, hone⟩ nodeId
    have hset : (Sim.ringBlank rplPort s.isRplOwner s.isRplNeighbour nodeId).cfg.RplSet := hsome
    have hblocks := Ring.started_blocksOnly
      (Sim.ringBlank rplPort s.isRplOwner s.isRplNeighbour nodeId) now
    rw [Ring.startPort_eq_rpl hset] at hblocks
    refine ⟨_, hcreate, ⟨now, nodeId, _, hcreate⟩, ha.owner, ha.neighbour, ?_, hblocks⟩
    intro port hlast
    rw [← ha.rplPort] at hlast
    rw [if_pos (by rw [← ha.isSome_eq, hlast]; rfl)] at hport
    obtain ⟨p, rfl, hname⟩ := hport
    refine ⟨port0Name, port1Name, nodeIdStr, hargs, ?_⟩
    exact Option.some.inj (hlast.symm.trans hname)
  · constructor
    · refine iff_of_false (by simp [ringdMain, hs]) ?_
      intro h
      rw [h.known opt hmem] at hopt
      cases hopt
    · intro rplPort isRplOwner isRplNeighbour nodeId h
      simp [ringdMain, hs] at h

/-- Whatever `sscanf` makes of a node id. -/
def noScan : List UInt8 → NodeId := fun _ => .zero

/-- `ringd -n b a b 00:00:00:00:00:00`, as far as the node id is looked at. -/
theorem ringd_starts_neighbour : ∃ r : Ring UInt64, Sim.Created r ∧
    r.cfg.isRplNeighbour = true ∧ r.BlocksOnly r.rpl := by
  have hmain : ringdMain noScan [.n [98]] [[97], [98], List.replicate 17 48] =
      some (some .port1, false, true, .zero) := rfl
  obtain ⟨r, _, hcreated, _, hneighbour, _, hblocks⟩ :=
    (ringd_starts noScan [.n [98]] [[97], [98], List.replicate 17 48] 0).2 _ _ _ _ hmain
  exact ⟨r, hcreated, hneighbour.mpr ⟨[98], by simp⟩, hblocks⟩

/-! ## `erps-ctl init` -/

/-- `bzero(&req, sizeof(req))`. -/
def erreqZero : ErReqData where
  erPort0 := List.replicate ifnamsiz 0
  erPort1 := List.replicate ifnamsiz 0
  erNodeId := .zero
  erId := 0
  erRapsVid := 0
  erRevertive := 0
  erRplPort := 0
  erRplOwner := 0
  erRplNeighbour := 0
  erPort0Failed := 0
  erPort1Failed := 0
  erPort0Blocked := 0
  erPort1Blocked := 0
  erGuardTime := 0
  erWtrTime := 0

/-- The option loop of `init_ring`; `none` is where it ends without a request. -/
def initOptions (scan : List UInt8 → NodeId) :
    List Opt → RplOptions → NodeId → Option (RplOptions × NodeId)
  | [], s, nodeId => some (s, nodeId)
  | .o optarg :: opts, s, nodeId => initOptions scan opts (s.take (.o optarg)) nodeId
  | .n optarg :: opts, s, nodeId => initOptions scan opts (s.take (.n optarg)) nodeId
  | .i optarg :: opts, s, _ =>
    -- "invalid node_id format"
    if optarg.length ≠ 17 then none else initOptions scan opts s (scan optarg)
  | .h :: _, _, _ => none
  -- there is no `default` in the switch
  | .unknown :: opts, s, nodeId => initOptions scan opts s nodeId

/-- `req.er_rpl_port`; `none` is "RPL must be either port0 or port1". -/
def rplPortOption (port0 port1 : List UInt8) : Option (List UInt8) → Option UInt16
  | none => some erpsRplNone.toUInt16
  | some rplPort =>
    if rplPort = port0 then some (erpsRplPort .port0)
    else if rplPort = port1 then some (erpsRplPort .port1)
    else none

/-- `init_ring`, with the request it makes of the kernel. -/
def initRing (scan : List UInt8 → NodeId) (opts : List Opt) (args : List (List UInt8)) :
    Option ErReqData :=
  match initOptions scan opts .none .zero with
  | none => none
  | some (s, nodeId) =>
    match args with
    | [port0, port1] =>
      match rplPortOption port0 port1 s.rplPort with
      | none => none
      | some erRplPort =>
        some { erreqZero with
          erId := 1
          erNodeId := nodeId
          erPort0 := strncpy ifnamsiz port0
          erPort1 := strncpy ifnamsiz port1
          erRplPort := erRplPort
          erRplOwner := flag s.isRplOwner
          erRplNeighbour := flag s.isRplNeighbour }
    -- "missing arguments"
    | _ => none

theorem asked_of_initOptions {scan : List UInt8 → NodeId} (opts : List Opt) {before : List Opt}
    {s s' : RplOptions} {id id' : NodeId} (ha : Asked before s)
    (h : initOptions scan opts s id = some (s', id')) : Asked (before ++ opts) s' := by
  induction opts generalizing before s id with
  | nil =>
    cases h
    simpa using ha
  | cons opt opts ih =>
    rw [← List.singleton_append, ← List.append_assoc]
    cases opt with
    | o optarg | n optarg => exact ih (ha.snoc _) h
    | i optarg =>
      unfold initOptions at h
      split at h
      · cases h
      · exact ih (ha.snoc (.i optarg)) h
    | h => cases h
    | unknown => exact ih (ha.snoc .unknown) h

/-- The request of a command line. -/
structure Requests (opts : List Opt) (port0 port1 : List UInt8) (req : ErReqData) : Prop where
  name0 : req.erPort0 = strncpy ifnamsiz port0
  name1 : req.erPort1 = strncpy ifnamsiz port1
  owner : req.erRplOwner ≠ 0 ↔ ∃ optarg, .o optarg ∈ opts
  neighbour : req.erRplNeighbour ≠ 0 ↔ ∃ optarg, .n optarg ∈ opts
  rplPort : rplPortOption port0 port1 (opts.filterMap Opt.rplPort).getLast? = some req.erRplPort
  defaults : req.erRapsVid = 0 ∧ req.erRevertive = 0 ∧ req.erGuardTime = 0 ∧ req.erWtrTime = 0

theorem flag_ne_zero_iff (b : Bool) : flag b ≠ 0 ↔ b = true := by
  cases b <;> simp [flag]

theorem requests_of_initRing {scan : List UInt8 → NodeId} {opts : List Opt}
    {args : List (List UInt8)} {req : ErReqData} (h : initRing scan opts args = some req) :
    ∃ port0 port1, args = [port0, port1] ∧ Requests opts port0 port1 req := by
  unfold initRing at h
  split at h
  · cases h
  · rename_i s nodeId hopts
    have ha := asked_of_initOptions opts Asked.nil hopts
    rw [List.nil_append] at ha
    split at h
    · rename_i port0 port1
      split at h
      · cases h
      · rename_i erRplPort hport
        cases h
        refine ⟨port0, port1, rfl, rfl, rfl, ?_, ?_, ha.rplPort ▸ hport, rfl, rfl, rfl, rfl⟩
        · rw [flag_ne_zero_iff, ha.owner]
        · rw [flag_ne_zero_iff, ha.neighbour]
    · cases h

/-- The port that is asked for is the one named last. -/
theorem Requests.exists_port {opts : List Opt} {port0 port1 rplPort : List UInt8} {req : ErReqData}
    (h : Requests opts port0 port1 req)
    (hlast : (opts.filterMap Opt.rplPort).getLast? = some rplPort) :
    ∃ p, req.erRplPort = erpsRplPort p ∧ rplPort = nameOf port0 port1 p := by
  have hport := h.rplPort
  rw [hlast] at hport
  unfold rplPortOption at hport
  simp only at hport
  split at hport
  · rename_i heq
    exact ⟨.port0, (Option.some.inj hport).symm, heq⟩
  · split at hport
    · rename_i heq
      exact ⟨.port1, (Option.some.inj hport).symm, heq⟩
    · cases hport

/-- So a role is not lost on the narrow port. -/
theorem Requests.port_ne_zero {opts : List Opt} {port0 port1 : List UInt8} {req : ErReqData}
    (h : Requests opts port0 port1 req)
    (hrole : (∃ optarg, .o optarg ∈ opts) ∨ ∃ optarg, .n optarg ∈ opts) :
    req.erRplPort.toUInt8 ≠ 0 := by
  obtain ⟨rplPort, hlast⟩ := Option.isSome_iff_exists.mp (isSome_lastPort_iff.mpr hrole)
  obtain ⟨p, hp, _⟩ := h.exists_port hlast
  rw [hp]
  cases p <;> decide

/-- All rings are asked for by `erps-ctl`. -/
def FromCtl (scan : List UInt8 → NodeId) (_ : State × Log) (e : Event) : Prop :=
  ∀ now req calls idx, e = .ioctl now .init (some req) calls idx →
    ∃ opts args, initRing scan opts args = some req

section module

variable {env : Env} {scan : List UInt8 → NodeId} {s : State} {l : Log}

/-- So every request on record is one of its. -/
theorem exists_initRing (h : ((logged env).restrict (FromCtl scan)).Reachable (s, l))
    {req : ErReqData} (hasked : l.asked = some req) :
    ∃ opts args, initRing scan opts args = some req := by
  have hall : ∀ req, l.asked = some req → ∃ opts args, initRing scan opts args = some req := by
    refine h.invariant (I := fun s => ∀ req, s.2.asked = some req →
      ∃ opts args, initRing scan opts args = some req) ?_ ?_
    · intro s hs req hreq
      rw [hs.2] at hreq
      cases hreq
    · intro s e t _ hs hst req hreq
      obtain ⟨hctl, _, hafter⟩ := hst
      rw [hafter] at hreq
      cases e with
      | load | unload => cases hreq
      | recv => exact hs req hreq
      | ioctl now cmd data calls idx =>
        cases cmd with
        | addif | delif | status | command | other => exact hs req hreq
        | init =>
          cases data with
          | none => exact hs req hreq
          | some asked =>
            simp only [Log.after] at hreq
            split at hreq
            · cases hreq
              exact hctl now _ calls idx rfl
            · exact hs req hreq
  exact hall req hasked

/-- **A ring that `erps-ctl` has asked for** plays the role of the command line, on the port named last;
and since there are no options for them, its times and its VID are the defaults, and it is not
revertive. -/
theorem ctl_plays {ring : GlobalRing}
    (h : ((logged env).restrict (FromCtl scan)).Reachable (s, l)) (hg : s.erGlobal = some ring) :
    ∃ opts port0 port1, initRing scan opts [port0, port1] = l.asked ∧
      (ring.er.ring.cfg.isRplOwner = true ↔ ∃ optarg, .o optarg ∈ opts) ∧
      (ring.er.ring.cfg.isRplNeighbour = true ↔ ∃ optarg, .n optarg ∈ opts) ∧
      ¬ (ring.er.ring.cfg.isRplOwner = true ∧ ring.er.ring.cfg.isRplNeighbour = true) ∧
      (∀ rplPort, (opts.filterMap Opt.rplPort).getLast? = some rplPort →
        rplPort = nameOf port0 port1 ring.er.ring.rpl) ∧
      ring.guardTime = 500 ∧ ring.wtrTime = 5 * 60000 ∧ ring.wtbTime = 5500 ∧
      ring.er.ring.cfg.rapsVid = 2000 ∧ ring.er.ring.cfg.isRevertive = false := by
  obtain ⟨⟨req, hasked, hmade⟩, _⟩ := (Attends.of_reachable h.of_restrict).live ring hg
  obtain ⟨opts, args, hinit⟩ := exists_initRing h hasked
  obtain ⟨port0, port1, rfl, hreq⟩ := requests_of_initRing hinit
  obtain ⟨hvid, hrev, hguard, hwtr⟩ := hreq.defaults
  have howner : ring.er.ring.cfg.isRplOwner = true ↔ ∃ optarg, .o optarg ∈ opts := by
    rw [hmade.owner, asOwner_iff, hreq.owner]
    exact ⟨And.left, fun ho => ⟨ho, hreq.port_ne_zero (.inl ho)⟩⟩
  have hneighbour : ring.er.ring.cfg.isRplNeighbour = true ↔ ∃ optarg, .n optarg ∈ opts := by
    rw [hmade.neighbour, asNeighbour_iff, hreq.neighbour]
    exact ⟨And.left, fun hn => ⟨hn, hreq.port_ne_zero (.inr hn)⟩⟩
  refine ⟨opts, port0, port1, hinit.trans hasked.symm, howner, hneighbour, ?_, ?_, ?_, ?_, ?_, ?_, ?_⟩
  · rintro ⟨ho, hn⟩
    rw [howner, ← hreq.owner] at ho
    rw [hneighbour, ← hreq.neighbour] at hn
    cases validRpl_of hmade.valid with
    | plain h | neighbour h => exact ho h
    | owner _ h => exact hn h
  · intro rplPort hlast
    obtain ⟨p, hp, hname⟩ := hreq.exists_port hlast
    rw [hmade.rpl, hname]
    unfold assignedPort
    rw [hp]
    cases p <;> rfl
  · rw [hmade.guardTime, hguard]
    rfl
  · rw [hmade.wtrTime, hwtr]
    rfl
  · rw [hmade.wtbTime, hguard]
    rfl
  · rw [hmade.rapsVid, hvid]
    rfl
  · rw [hmade.revertive, hrev]
    rfl

end module

/-- `erps-ctl init -o b a b`: the RPL owner on its second port. -/
theorem ctl_plays_owner : ∃ (s : State) (l : Log) (ring : GlobalRing),
    ((logged someEnv).restrict (FromCtl noScan)).Reachable (s, l) ∧ s.erGlobal = some ring ∧
      l.asked = initRing noScan [.o [98]] [[97], [98]] ∧
      ring.er.ring.cfg.isRplOwner = true ∧ ring.er.ring.rpl = .port1 ∧ ring.wtbTime = 5500 := by
  have hsteps : ∃ req a b ring, initRing noScan [.o [98]] [[97], [98]] = some req ∧
      handle someEnv .boot (.load true) = some a ∧
      handle someEnv a (.ioctl 0 .init (some req) allWell someIdx) = some b ∧
      (Log.after someEnv a (.ioctl 0 .init (some req) allWell someIdx) b .none) =
        ⟨some req, []⟩ ∧ b.erGlobal = some ring ∧ ring.er.ring.cfg.isRplOwner = true ∧
      ring.er.ring.rpl = .port1 :=
    ⟨_, _, _, _, rfl, rfl, rfl, rfl, rfl, rfl, rfl⟩
  obtain ⟨req, a, b, ring, hreq, ha, hb, hasked, hg, hown, hrpl⟩ := hsteps
  have h₀ : ((logged someEnv).restrict (FromCtl noScan)).Reachable (.boot, .none) := .init ⟨rfl, rfl⟩
  have h₁ : ((logged someEnv).restrict (FromCtl noScan)).Reachable (a, .none) := by
    refine h₀.step (e := .load true) ⟨?_, ha, rfl⟩
    intro now req calls idx he
    cases he
  have h₂ : ((logged someEnv).restrict (FromCtl noScan)).Reachable (b, ⟨some req, []⟩) := by
    refine h₁.step ⟨?_, hb, hasked.symm⟩
    intro now req calls idx he
    cases he
    exact ⟨_, _, hreq⟩
  obtain ⟨_, _, _, _, _, _, _, _, _, _, hwtb, _⟩ := ctl_plays h₂ hg
  exact ⟨b, _, ring, h₂, hg, hreq.symm, hown, hrpl, hwtb⟩

end Erps.CommandLine
