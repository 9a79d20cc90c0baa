import Mathlib.Data.Finset.Basic
import Mathlib.Data.Multiset.AddSub
import Erps.Kernel.Ioctl

/-!
# What creating a ring acquires: `er_ring_create`, `er_port_create`, `er_netmap.c`

The same functions once more, with what they acquire on the way: memory, the attachment of a port to
the bridge, a reference to its adapter. Each of the nine calls that can fail is a field of `Calls`; a
call that fails changes nothing. Netmap is the set of attached ports and the references that are held,
and keeps a list of what was done to it that it is not made for.

Only some of the ways out are unwound (`allOrNothing_iff`): behind the `cleanup` label of
`er_port_create` both ways of failing are undone, one of which did not happen, and behind that of
`er_ring_create` there is nothing but `er_free(ret)`.
-/

set_option autoImplicit false

namespace Erps.Kernel.Create

/-! ## Netmap -/

/-- A call that netmap is not made for: a port that is not attached is detached, or a reference that
is not held is released. -/
inductive Misuse (α : Type)
  | detach (name : α)
  | put (na : Option α)
  deriving DecidableEq, Repr

/-- Netmap, as far as these functions see it. Ports and their adapters go by their names. -/
structure Netmap (α : Type) where
  attached : Finset α
  refs : Multiset α
  misuse : List (Misuse α)

namespace Netmap

variable {α : Type}

/-- No port is attached and no reference is held. -/
def empty : Netmap α := ⟨∅, 0, []⟩

variable [DecidableEq α]

/-- `NETMAP_BDG_ATTACH`. -/
def attach (m : Netmap α) (name : α) : Netmap α := { m with attached := insert name m.attached }

/-- `NETMAP_BDG_DETACH`. -/
def detach (m : Netmap α) (name : α) : Netmap α :=
  if name ∈ m.attached then { m with attached := m.attached.erase name }
  else { m with misuse := m.misuse ++ [.detach name] }

/-- `netmap_get_na`, where it finds the adapter. -/
def get (m : Netmap α) (name : α) : Netmap α := { m with refs := name ::ₘ m.refs }

/-- `netmap_adapter_put`. Whether it `ignoresNull` is up to netmap. -/
def put (ignoresNull : Bool) (m : Netmap α) : Option α → Netmap α
  | none => if ignoresNull then m else { m with misuse := m.misuse ++ [.put none] }
  | some na =>
    if na ∈ m.refs then { m with refs := m.refs.erase na }
    else { m with misuse := m.misuse ++ [.put (some na)] }

variable (m : Netmap α) (name : α)

@[simp] theorem refs_detach : (m.detach name).refs = m.refs := by
  unfold detach
  split <;> rfl

@[simp] theorem refs_put_none (ignoresNull : Bool) : (m.put ignoresNull none).refs = m.refs := by
  cases ignoresNull <;> rfl

@[simp] theorem attached_put_none (ignoresNull : Bool) :
    (m.put ignoresNull none).attached = m.attached := by
  cases ignoresNull <;> rfl

/-- Misuse stays on record. -/
theorem misuse_detach {m : Netmap α} {name : α} (h : (m.detach name).misuse = []) :
    m.misuse = [] ∧ name ∈ m.attached := by
  unfold detach at h
  split at h
  · exact ⟨h, ‹_›⟩
  · simp at h

theorem misuse_put_none {m : Netmap α} {ignoresNull : Bool}
    (h : (m.put ignoresNull none).misuse = []) : m.misuse = [] ∧ ignoresNull = true := by
  cases ignoresNull with
  | true => exact ⟨h, rfl⟩
  | false => simp [put] at h

end Netmap

/-! ## The calls that can fail -/

/-- The answer of `netmap_get_na`: an error, no error and no adapter, or an adapter. -/
inductive GetNa
  | error
  | missing
  | found
  deriving DecidableEq, Repr

/-- How the calls of one `er_port_create` go. -/
structure PortCalls where
  malloc : Bool
  attach : Bool
  getNa : GetNa
  deriving DecidableEq, Repr

/-- How the calls of `er_ring_create` go. -/
structure Calls where
  malloc : Bool
  port0 : PortCalls
  port1 : PortCalls
  rapsCreate : Bool
  frameMalloc : Bool
  deriving DecidableEq, Repr

/-! ## Ports -/

variable {α : Type} [DecidableEq α]

/-- `struct er_port`: its name and the `na` pointer. -/
structure ErPort (α : Type) where
  name : α
  na : Option α
  deriving DecidableEq, Repr

/-- `er_netmap_unget_adapter`. -/
def erNetmapUngetAdapter (ignoresNull : Bool) (port : ErPort α) (m : Netmap α) : Netmap α :=
  m.put ignoresNull port.na

/-- `er_netmap_get_adapter`: whether it succeeds, with the port and netmap afterwards. -/
def erNetmapGetAdapter (ignoresNull : Bool) (answer : GetNa) (port : ErPort α) (m : Netmap α) :
    Bool × ErPort α × Netmap α :=
  match answer with
  | .error => (false, port, m)
  -- "na not found"
  | .missing => (false, port, erNetmapUngetAdapter ignoresNull port m)
  | .found => (true, { port with na := some port.name }, m.get port.name)

/-- The `cleanup` label of `er_port_create`. -/
def erPortCleanup (ignoresNull : Bool) (port : ErPort α) (m : Netmap α) : Netmap α :=
  (erNetmapUngetAdapter ignoresNull port m).detach port.name

/-- `er_port_create`. -/
def erPortCreate (ignoresNull : Bool) (calls : PortCalls) (name : α) (m : Netmap α) :
    Option (ErPort α) × Netmap α :=
  if !calls.malloc then (none, m)
  else
    let port : ErPort α := { name := name, na := none }
    if !calls.attach then (none, erPortCleanup ignoresNull port m)
    else
      match erNetmapGetAdapter ignoresNull calls.getNa port (m.attach name) with
      | (false, port, m) => (none, erPortCleanup ignoresNull port m)
      | (true, port, m) => (some port, m)

/-- All calls of an `er_port_create` go well. -/
def PortCalls.Opens (calls : PortCalls) : Prop :=
  calls.malloc = true ∧ calls.attach = true ∧ calls.getNa = .found

theorem erPortCreate_of_opens (ignoresNull : Bool) {calls : PortCalls} (h : calls.Opens) (name : α)
    (m : Netmap α) :
    erPortCreate ignoresNull calls name m = (some ⟨name, some name⟩, (m.attach name).get name) := by
  obtain ⟨hmalloc, hattach, hget⟩ := h
  simp [erPortCreate, hmalloc, hattach, hget, erNetmapGetAdapter]

theorem refs_erPortCleanup (ignoresNull : Bool) (name : α) (m : Netmap α) :
    (erPortCleanup ignoresNull ⟨name, none⟩ m).refs = m.refs := by
  simp [erPortCleanup, erNetmapUngetAdapter]

/-- A port that is not opened takes no reference. -/
theorem erPortCreate_of_not_opens (ignoresNull : Bool) {calls : PortCalls} (h : ¬ calls.Opens)
    (name : α) (m : Netmap α) :
    (erPortCreate ignoresNull calls name m).1 = none ∧
      (erPortCreate ignoresNull calls name m).2.refs = m.refs := by
  unfold erPortCreate
  cases hmalloc : calls.malloc with
  | false => exact ⟨rfl, rfl⟩
  | true =>
    cases hattach : calls.attach with
    | false => exact ⟨rfl, refs_erPortCleanup _ _ _⟩
    | true =>
      cases hget : calls.getNa with
      | error => exact ⟨rfl, refs_erPortCleanup _ _ _⟩
      | missing => exact ⟨rfl, (refs_erPortCleanup _ _ _).trans (Netmap.refs_put_none _ _)⟩
      | found => exact absurd ⟨hmalloc, hattach, hget⟩ h

/-- Of the ways to fail, these leave an empty netmap as it was. What `cleanup` detaches must have
been attached, and what it releases is null. -/
theorem erPortCreate_clean_iff (ignoresNull : Bool) {calls : PortCalls} (h : ¬ calls.Opens)
    (name : α) :
    (erPortCreate ignoresNull calls name .empty).2.misuse = [] ∧
        (erPortCreate ignoresNull calls name .empty).2.attached = ∅ ↔
      calls.malloc = false ∨
        (ignoresNull = true ∧ calls.attach = true ∧ calls.getNa ≠ .found) := by
  unfold erPortCreate
  cases hmalloc : calls.malloc with
  | false => exact iff_of_true ⟨rfl, rfl⟩ (.inl rfl)
  | true =>
    cases hattach : calls.attach with
    | false =>
      refine iff_of_false ?_ (by simp)
      intro hclean
      obtain ⟨_, hmem⟩ := Netmap.misuse_detach hclean.1
      simp [erNetmapUngetAdapter, Netmap.empty] at hmem
    | true =>
      have hcleanup : ∀ m : Netmap α, m.attached = {name} → m.misuse = [] →
          ((erPortCleanup ignoresNull ⟨name, none⟩ m).misuse = [] ∧
            (erPortCleanup ignoresNull ⟨name, none⟩ m).attached = ∅ ↔ ignoresNull = true) := by
        intro m hm hmis
        constructor
        · intro hclean
          exact (Netmap.misuse_put_none (Netmap.misuse_detach hclean.1).1).2
        · rintro rfl
          simp [erPortCleanup, erNetmapUngetAdapter, Netmap.put, Netmap.detach, hm, hmis]
      cases hget : calls.getNa with
      | error =>
        have h := hcleanup (Netmap.empty.attach name) rfl rfl
        simpa [erNetmapGetAdapter] using h
      | missing =>
        have h := hcleanup ((Netmap.empty.attach name).put ignoresNull none)
        cases ignoresNull with
        | false =>
          refine iff_of_false ?_ (by simp)
          intro hclean
          have := (Netmap.misuse_put_none (Netmap.misuse_detach hclean.1).1).2
          simp at this
        | true => simpa [erNetmapGetAdapter, erNetmapUngetAdapter] using h rfl rfl
      | found => exact absurd ⟨hmalloc, hattach, hget⟩ h

/-! ## Rings -/

/-- What `er_ring_create` ends in: a null pointer is read, 0 is returned, or a ring. -/
inductive Outcome (α : Type)
  | nullDeref
  | failed
  | created (port0 port1 : ErPort α)
  deriving DecidableEq, Repr

/-- `er_ring_create`. Its `cleanup` label frees the record and nothing else. -/
def erRingCreate (ignoresNull : Bool) (calls : Calls) (port0Name port1Name : α) (m : Netmap α) :
    Outcome α × Netmap α :=
  if !calls.malloc then (.failed, m)
  else
    match erPortCreate ignoresNull calls.port0 port0Name m with
    | (none, m) => (.failed, m)
    | (some port0, m) =>
      match erPortCreate ignoresNull calls.port1 port1Name m with
      | (none, m) => (.failed, m)
      | (some port1, m) =>
        -- `ret->raps = er_raps_create(); ret->raps->vid = ...`
        if !calls.rapsCreate then (.nullDeref, m)
        else if !calls.frameMalloc then (.failed, m)
        else (.created port0 port1, m)

/-- Nothing was misused, and either the ring is there with both ports attached and a reference for
each, or everything is as it was. -/
structure AllOrNothing (port0Name port1Name : α) (result : Outcome α × Netmap α) : Prop where
  not_nullDeref : result.1 ≠ .nullDeref
  not_misused : result.2.misuse = []
  acquired : ∀ port0 port1, result.1 = .created port0 port1 →
    port0.na = some port0Name ∧ port1.na = some port1Name ∧
      result.2.attached = {port0Name, port1Name} ∧ result.2.refs = {port0Name, port1Name}
  released : result.1 = .failed → result.2.attached = ∅ ∧ result.2.refs = 0

/-- **The ways through `er_ring_create` that are unwound.** -/
inductive Unwinds (ignoresNull : Bool) (calls : Calls) : Prop
  /-- no memory for the ring -/
  | ring (h : calls.malloc = false)
  /-- no memory for the first port -/
  | port (h : calls.port0.malloc = false)
  /-- no adapter for the first port, with a netmap that ignores null -/
  | adapter (hnull : ignoresNull = true) (hattach : calls.port0.attach = true)
      (hget : calls.port0.getNa ≠ .found)
  | created (h₀ : calls.port0.Opens) (h₁ : calls.port1.Opens) (hraps : calls.rapsCreate = true)
      (hframe : calls.frameMalloc = true)

section erRingCreate

variable (ignoresNull : Bool) {calls : Calls} (port0Name port1Name : α) (m : Netmap α)

theorem erRingCreate_of_created (hmalloc : calls.malloc = true) (h₀ : calls.port0.Opens)
    (h₁ : calls.port1.Opens) (hraps : calls.rapsCreate = true) (hframe : calls.frameMalloc = true) :
    erRingCreate ignoresNull calls port0Name port1Name m =
      (.created ⟨port0Name, some port0Name⟩ ⟨port1Name, some port1Name⟩,
        (((m.attach port0Name).get port0Name).attach port1Name).get port1Name) := by
  simp [erRingCreate, hmalloc, hraps, hframe, erPortCreate_of_opens _ h₀,
    erPortCreate_of_opens _ h₁]

theorem erRingCreate_of_not_opens (hmalloc : calls.malloc = true) (h₀ : ¬ calls.port0.Opens) :
    erRingCreate ignoresNull calls port0Name port1Name m =
      (.failed, (erPortCreate ignoresNull calls.port0 port0Name m).2) := by
  obtain ⟨hnone, _⟩ := erPortCreate_of_not_opens ignoresNull h₀ port0Name m
  unfold erRingCreate
  rw [hmalloc]
  cases hp : erPortCreate ignoresNull calls.port0 port0Name m with
  | mk port m' =>
    rw [hp] at hnone
    cases hnone
    rfl

/-- The reference of the first port is there to stay. -/
theorem mem_refs_erRingCreate (hmalloc : calls.malloc = true) (h₀ : calls.port0.Opens) :
    port0Name ∈ (erRingCreate ignoresNull calls port0Name port1Name m).2.refs := by
  unfold erRingCreate
  simp only [hmalloc, erPortCreate_of_opens _ h₀]
  by_cases h₁ : calls.port1.Opens
  · simp only [erPortCreate_of_opens _ h₁]
    cases calls.rapsCreate <;> cases calls.frameMalloc <;> simp [Netmap.get, Netmap.attach]
  · obtain ⟨hnone, hrefs⟩ := erPortCreate_of_not_opens ignoresNull h₁ port1Name
      ((m.attach port0Name).get port0Name)
    cases hp : erPortCreate ignoresNull calls.port1 port1Name
      ((m.attach port0Name).get port0Name) with
    | mk port m' =>
      rw [hp] at hnone hrefs
      cases hnone
      simp [show m'.refs = port0Name ::ₘ m.refs from hrefs]

/-- With the first port open, a way that neither fails nor reads a null pointer goes to the end. -/
theorem created_of_opens (hmalloc : calls.malloc = true) (h₀ : calls.port0.Opens)
    (hfailed : (erRingCreate ignoresNull calls port0Name port1Name m).1 ≠ .failed)
    (hnull : (erRingCreate ignoresNull calls port0Name port1Name m).1 ≠ .nullDeref) :
    calls.port1.Opens ∧ calls.rapsCreate = true ∧ calls.frameMalloc = true := by
  unfold erRingCreate at hfailed hnull
  simp only [hmalloc, erPortCreate_of_opens _ h₀] at hfailed hnull
  by_cases h₁ : calls.port1.Opens
  · simp only [erPortCreate_of_opens _ h₁] at hfailed hnull
    cases hraps : calls.rapsCreate with
    | false => simp [hraps] at hnull
    | true =>
      cases hframe : calls.frameMalloc with
      | false => simp [hraps, hframe] at hfailed
      | true => exact ⟨h₁, rfl, rfl⟩
  · obtain ⟨hnone, _⟩ := erPortCreate_of_not_opens ignoresNull h₁ port1Name
      ((m.attach port0Name).get port0Name)
    cases hp : erPortCreate ignoresNull calls.port1 port1Name
      ((m.attach port0Name).get port0Name) with
    | mk port m' =>
      rw [hp] at hnone
      cases hnone
      simp [hp] at hfailed

end erRingCreate

namespace Unwinds

variable {ignoresNull : Bool} {calls : Calls} (h : Unwinds ignoresNull calls)
include h

theorem rest_of_opens (hmalloc : calls.malloc = true) (h₀ : calls.port0.Opens) :
    calls.port1.Opens ∧ calls.rapsCreate = true ∧ calls.frameMalloc = true := by
  cases h with
  | ring h => simp [hmalloc] at h
  | port h => simp [h₀.1] at h
  | adapter _ _ hget => exact absurd h₀.2.2 hget
  | created _ h₁ hraps hframe => exact ⟨h₁, hraps, hframe⟩

theorem port0_of_not_opens (hmalloc : calls.malloc = true) (h₀ : ¬ calls.port0.Opens) :
    calls.port0.malloc = false ∨
      (ignoresNull = true ∧ calls.port0.attach = true ∧ calls.port0.getNa ≠ .found) := by
  cases h with
  | ring h => simp [hmalloc] at h
  | port h => exact .inl h
  | adapter hnull hattach hget => exact .inr ⟨hnull, hattach, hget⟩
  | created h _ _ _ => exact absurd h h₀

end Unwinds

/-- **All or nothing**, exactly on these ways. -/
theorem allOrNothing_iff (ignoresNull : Bool) (calls : Calls) (port0Name port1Name : α) :
    AllOrNothing port0Name port1Name
        (erRingCreate ignoresNull calls port0Name port1Name .empty) ↔
      Unwinds ignoresNull calls := by
  cases hmalloc : calls.malloc with
  | false =>
    have heq : erRingCreate ignoresNull calls port0Name port1Name .empty = (.failed, .empty) := by
      simp [erRingCreate, hmalloc]
    rw [heq]
    exact iff_of_true ⟨nofun, rfl, nofun, fun _ => ⟨rfl, rfl⟩⟩ (.ring hmalloc)
  | true =>
    by_cases h₀ : calls.port0.Opens
    · constructor
      · -- the reference of the first port is held, so this must end in a ring
        intro h
        have hmem := mem_refs_erRingCreate ignoresNull port0Name port1Name .empty hmalloc h₀
        have hfailed : (erRingCreate ignoresNull calls port0Name port1Name .empty).1 ≠ .failed := by
          intro hfail
          rw [(h.released hfail).2] at hmem
          exact Multiset.notMem_zero _ hmem
        obtain ⟨h₁, hraps, hframe⟩ := created_of_opens ignoresNull port0Name port1Name .empty
          hmalloc h₀ hfailed h.not_nullDeref
        exact .created h₀ h₁ hraps hframe
      · intro h
        obtain ⟨h₁, hraps, hframe⟩ := h.rest_of_opens hmalloc h₀
        rw [erRingCreate_of_created ignoresNull port0Name port1Name .empty hmalloc h₀ h₁ hraps
          hframe]
        refine ⟨nofun, rfl, ?_, nofun⟩
        intro port0 port1 hcreated
        cases hcreated
        exact ⟨rfl, rfl, Finset.pair_comm _ _, Multiset.pair_comm _ _⟩
    · have hclean := erPortCreate_clean_iff ignoresNull h₀ port0Name
      have hrefs := (erPortCreate_of_not_opens ignoresNull h₀ port0Name .empty).2
      rw [erRingCreate_of_not_opens ignoresNull port0Name port1Name .empty hmalloc h₀]
      constructor
      · intro h
        rcases hclean.1 ⟨h.not_misused, (h.released rfl).1⟩ with hport | ⟨hnull, hattach, hget⟩
        · exact .port hport
        · exact .adapter hnull hattach hget
      · intro h
        obtain ⟨hmis, hattached⟩ := hclean.2 (h.port0_of_not_opens hmalloc h₀)
        exact ⟨nofun, hmis, nofun, fun _ => ⟨hattached, hrefs⟩⟩

/-- The second port cannot be attached: the first stays so, and its adapter held. -/
theorem allOrNothing_counterexample :
    ¬ AllOrNothing PortId.port0 PortId.port1
      (erRingCreate true
        ⟨true, ⟨true, true, .found⟩, ⟨true, false, .error⟩, true, true⟩ .port0 .port1 .empty) := by
  intro h
  have hrefs := (h.released rfl).2
  simp [erRingCreate, erPortCreate, erNetmapGetAdapter, erPortCleanup, erNetmapUngetAdapter,
    Netmap.put, Netmap.attach, Netmap.get, Netmap.empty] at hrefs

/-! ## The ring of the request -/

instance (calls : PortCalls) : Decidable calls.Opens :=
  inferInstanceAs (Decidable (_ ∧ _ ∧ _))

/-- Whether a port can be attached, and with which index. -/
def Calls.openPort (calls : Calls) (idx : PortId → Int) (port : PortId) (_name : List UInt8) :
    Option Int :=
  match port with
  | .port0 => if calls.port0.Opens then some (idx .port0) else none
  | .port1 => if calls.port1.Opens then some (idx .port1) else none

/-- While there is memory, `erRingCreatePorts` makes a ring when this one does. -/
theorem erRingCreatePorts_isSome_iff (ignoresNull : Bool) {calls : Calls} (m : Netmap (List UInt8))
    (idx : PortId → Int) (now : Int32) (ringId : UInt16) (port0Name port1Name : List UInt8)
    (rplOwner rplNeighbour : UInt8) (nodeId : NodeId) (hmalloc : calls.malloc = true)
    (hraps : calls.rapsCreate = true) (hframe : calls.frameMalloc = true) :
    (erRingCreatePorts (calls.openPort idx) now ringId port0Name port1Name rplOwner rplNeighbour
        nodeId).isSome ↔
      ∃ port0 port1,
        (erRingCreate ignoresNull calls port0Name port1Name m).1 = .created port0 port1 := by
  unfold erRingCreatePorts
  by_cases h₀ : calls.port0.Opens
  · by_cases h₁ : calls.port1.Opens
    · rw [erRingCreate_of_created _ _ _ _ hmalloc h₀ h₁ hraps hframe]
      simp [Calls.openPort, h₀, h₁]
    · refine iff_of_false (by simp [Calls.openPort, h₀, h₁]) ?_
      rintro ⟨port0, port1, hcreated⟩
      exact h₁ (created_of_opens ignoresNull port0Name port1Name m hmalloc h₀ (by simp [hcreated])
        (by simp [hcreated])).1
  · rw [erRingCreate_of_not_opens _ _ _ _ hmalloc h₀]
    simp [Calls.openPort, h₀]

end Erps.Kernel.Create
