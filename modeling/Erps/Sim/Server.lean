import Mathlib.Data.Finset.Erase
import Mathlib.Data.Finset.Insert
import Erps.Sim.Burst
import Erps.Sim.Control

/-!
# The control socket's server: `rio_worker`

A thread of its own waits for clients, takes one request from each and closes it. What it keeps are
descriptor numbers, and the operating system gives a number out again once it is closed, so everything
hangs on the books: what is in `fds` is the listening socket, the abort pipe and the clients that are
still to be served (`keeps_books`). A pass serves the clients that are ready, all of them and each one
once, and closes nothing else (`serves_ready`).

The callbacks of the event loop come in between as they like. With them the ring goes through states
of the daemon, the requests of the clients being its commands. That the two threads share it without
a lock is not seen here: a callback is one step, and so is a pass.

A descriptor of `FD_SETSIZE` or more has no bit in a `fd_set`, and `rio_accept` does not look. Such
descriptors are not handed out here (`Pass.Offered`).
-/

set_option autoImplicit false

namespace Erps.Sim

open Bytes

/-! ## `ring_io.c` -/

/-- `FD_SETSIZE`. -/
def fdSetSize : Nat := 1024

/-- `FD_SET`; `none` is a write past the end of the set. -/
def fdSet (fd : Nat) (fds : Finset Nat) : Option (Finset Nat) :=
  if fd < fdSetSize then some (insert fd fds) else none

/-- `struct ring_io`, but for the ring and the thread. -/
structure RingIo where
  sock : Nat
  abortSend : Nat
  abortRecv : Nat
  fds : Finset Nat
  maxFd : Nat

/-- `ring_io_init`, with the descriptors that `pipe` and `socket` return. -/
def ringIoInit (fd₀ fd₁ sock : Nat) : Option RingIo :=
  let maxFd := if fd₀ > fd₁ then fd₀ else fd₁
  let maxFd := if maxFd > sock then maxFd else sock
  ((fdSet sock ∅).bind (fdSet fd₁)).map fun fds =>
    { sock := sock, abortSend := fd₀, abortRecv := fd₁, fds := fds, maxFd := maxFd }

/-- The server and the ring. Of a client's descriptor `client` knows which connection is behind it,
counting from the first one accepted; `served` are the connections whose request was taken, in that
order, and `stray` the descriptors that `rio_client` closed although no client was behind them. -/
structure Server where
  io : RingIo
  ring : Ring UInt64
  isRunning : Bool
  client : Nat → Option Nat
  accepted : Nat
  served : List Nat
  stray : List Nat

/-- What one pass of the loop gets from outside: the descriptors that `select` finds ready, the one
that `accept` returns, what has arrived on each, and what `rio_client` finds on its stack. -/
structure Pass where
  now : UInt64
  ready : Finset Nat
  accepts : Option Nat
  arrived : Nat → List UInt8
  stack : Nat → RingIoReq

namespace Server

/-- A new connection, in a set that has room for it. -/
def opened (s : Server) (sock : Nat) (fds : Finset Nat) : Server :=
  { s with
    io := { s.io with fds := fds, maxFd := if sock > s.io.maxFd then sock else s.io.maxFd }
    client := Function.update s.client sock (some s.accepted)
    accepted := s.accepted + 1 }

/-- `rio_accept`. -/
def rioAccept (s : Server) : Option Nat → Option Server
  | none => some s
  | some sock => (fdSet sock s.io.fds).map (s.opened sock)

/-- `rio_client`, closing included. -/
def rioClient (s : Server) (p : Pass) (sock : Nat) : Option Server :=
  (rioClientRecv s.ring p.now (p.stack sock) (p.arrived sock)).map fun r =>
    { s with
      ring := r
      io := { s.io with fds := s.io.fds.erase sock }
      client := Function.update s.client sock none
      served := s.served ++ (s.client sock).toList
      stray := if (s.client sock).isNone then s.stray ++ [sock] else s.stray }

/-- The loop over the descriptors. -/
def serve (p : Pass) (ready : Finset Nat) : List Nat → Server → Option Server
  | [], s => some s
  | i :: is, s =>
    if i ∈ ready then (s.rioClient p i).bind (serve p ready is) else serve p ready is s

/-- One pass of `rio_worker`, past `select`. -/
def rioWorker (s : Server) (p : Pass) : Option Server :=
  let (polled, ready) :=
    -- new client is connected
    if s.io.sock ∈ p.ready then (s.rioAccept p.accepts, p.ready.erase s.io.sock)
    else (some s, p.ready)
  polled.bind fun s =>
    -- abort worker thread
    if s.io.abortRecv ∈ ready then some { s with isRunning := false }
    else serve p ready (List.range (s.io.maxFd + 1)) s

end Server

/-- What the operating system promises: `select` returns descriptors it was asked about, and `accept`
one that the process does not have open. That a `fd_set` has room for it is what `rio_accept` takes for
granted. -/
structure Pass.Offered (p : Pass) (s : Server) : Prop where
  running : s.isRunning = true
  ready : ∀ i ∈ p.ready, i ∈ s.io.fds ∧ i ≤ s.io.maxFd
  fresh : ∀ i, p.accepts = some i →
    i ≠ s.io.sock ∧ i ≠ s.io.abortSend ∧ i ≠ s.io.abortRecv ∧ s.client i = none
  room : ∀ i, p.accepts = some i → i < fdSetSize

inductive ServerEvent
  /-- a callback of the event loop -/
  | main (c : Callback)
  | control (p : Pass)

/-- The event loop runs anything but commands. -/
def Callback.isMain : Callback → Bool
  | .input ⟨_, .command _⟩ => false
  | _ => true

/-- **The daemon and its server.** -/
def server (host : ByteOrder) : Lts Server ServerEvent where
  init s := Created s.ring ∧ ∃ fd₀ fd₁ sock, fd₀ ≠ fd₁ ∧ sock ≠ fd₀ ∧ sock ≠ fd₁ ∧
    (fd₀ < fdSetSize ∧ fd₁ < fdSetSize ∧ sock < fdSetSize) ∧
    ringIoInit fd₀ fd₁ sock = some s.io ∧ s = ⟨s.io, s.ring, true, fun _ => none, 0, [], []⟩
  step s e t :=
    match e with
    | .main c => c.isMain = true ∧ (react host s.ring c).map (fun r => { s with ring := r }) = some t
    | .control p => p.Offered s ∧ s.rioWorker p = some t

/-! ## The connections -/

/-- The connections are accounted for: those that are open, each under its descriptor, and those that
were served. -/
structure Tallied (client : Nat → Option Nat) (accepted : Nat) (served : List Nat) : Prop where
  /-- each connection has one descriptor -/
  inj : ∀ i j c, client i = some c → client j = some c → i = j
  /-- each connection is served or open, and not both -/
  accepted_iff : ∀ c, c < accepted ↔ c ∈ served ∨ ∃ i, client i = some c
  not_served : ∀ i c, client i = some c → c ∉ served
  once : served.Nodup

theorem update_eq_some_iff {client : Nat → Option Nat} {i j c : Nat} {v : Option Nat} :
    Function.update client i v j = some c ↔ j = i ∧ v = some c ∨ j ≠ i ∧ client j = some c := by
  by_cases h : j = i
  · subst h
    simp
  · simp [h]

namespace Tallied

variable {client : Nat → Option Nat} {accepted : Nat} {served : List Nat} {i c : Nat}

theorem none : Tallied (fun _ => .none) 0 [] where
  inj _ _ _ h := by cases h
  accepted_iff c := by simp
  not_served _ _ h := by cases h
  once := List.nodup_nil

/-- The number of the next connection is a new one. -/
theorem fresh (h : Tallied client accepted served) :
    accepted ∉ served ∧ ∀ i, client i ≠ some accepted := by
  have hnot := (h.accepted_iff accepted).not.mp (Nat.lt_irrefl _)
  exact ⟨fun hs => hnot (.inl hs), fun i hi => hnot (.inr ⟨i, hi⟩)⟩

theorem opened (h : Tallied client accepted served) (hfree : client i = .none) :
    Tallied (Function.update client i (some accepted)) (accepted + 1) served where
  inj j k c hj hk := by
    rw [update_eq_some_iff] at hj hk
    rcases hj with ⟨rfl, hjc⟩ | ⟨_, hj⟩
    · cases hjc
      rcases hk with ⟨rfl, _⟩ | ⟨_, hk⟩
      · rfl
      · exact absurd hk (h.fresh.2 k)
    · rcases hk with ⟨rfl, hkc⟩ | ⟨_, hk⟩
      · cases hkc
        exact absurd hj (h.fresh.2 j)
      · exact h.inj j k c hj hk
  accepted_iff c := by
    rw [Nat.lt_succ_iff_lt_or_eq, h.accepted_iff]
    constructor
    · intro hc
      rcases hc with (hc | ⟨j, hj⟩) | rfl
      · exact .inl hc
      · have hji : j ≠ i := by
          rintro rfl
          rw [hfree] at hj
          cases hj
        exact .inr ⟨j, update_eq_some_iff.mpr (.inr ⟨hji, hj⟩)⟩
      · exact .inr ⟨i, Function.update_self ..⟩
    · intro hc
      rcases hc with hc | ⟨j, hj⟩
      · exact .inl (.inl hc)
      · rcases update_eq_some_iff.mp hj with ⟨_, hc⟩ | ⟨_, hj⟩
        · exact .inr (Option.some.inj hc).symm
        · exact .inl (.inr ⟨j, hj⟩)
  not_served j c hj := by
    rcases update_eq_some_iff.mp hj with ⟨_, hc⟩ | ⟨_, hj⟩
    · cases hc
      exact h.fresh.1
    · exact h.not_served j c hj
  once := h.once

theorem closed (h : Tallied client accepted served) (hi : client i = some c) :
    Tallied (Function.update client i .none) accepted (served ++ [c]) where
  inj j k d hj hk := by
    rw [update_eq_some_iff] at hj hk
    rcases hj with ⟨_, hd⟩ | ⟨_, hj⟩
    · cases hd
    · rcases hk with ⟨_, hd⟩ | ⟨_, hk⟩
      · cases hd
      · exact h.inj j k d hj hk
  accepted_iff d := by
    rw [h.accepted_iff, List.mem_append, List.mem_singleton]
    constructor
    · intro hd
      rcases hd with hd | ⟨j, hj⟩
      · exact .inl (.inl hd)
      · by_cases hji : j = i
        · rw [hji, hi] at hj
          exact .inl (.inr (Option.some.inj hj).symm)
        · exact .inr ⟨j, update_eq_some_iff.mpr (.inr ⟨hji, hj⟩)⟩
    · intro hd
      rcases hd with (hd | rfl) | ⟨j, hj⟩
      · exact .inl hd
      · exact .inr ⟨i, hi⟩
      · rcases update_eq_some_iff.mp hj with ⟨_, hd⟩ | ⟨_, hj⟩
        · cases hd
        · exact .inr ⟨j, hj⟩
  not_served j d hj hd := by
    rcases update_eq_some_iff.mp hj with ⟨_, hd⟩ | ⟨hji, hj⟩
    · cases hd
    · rcases List.mem_append.mp hd with hd | hd
      · exact h.not_served j d hj hd
      · rw [List.mem_singleton] at hd
        exact hji (h.inj j i c (hd ▸ hj) hi)
  once := List.Nodup.append h.once (List.nodup_singleton c)
    (List.disjoint_singleton.mpr (h.not_served i c hi))

end Tallied

/-! ## The books -/

/-- What the server waits for, and who has been served. -/
structure Books (s : Server) : Prop where
  fds : ∀ i, i ∈ s.io.fds ↔ i = s.io.sock ∨ i = s.io.abortRecv ∨ (s.client i).isSome = true
  le_maxFd : ∀ i ∈ s.io.fds, i ≤ s.io.maxFd
  maxFd_lt : s.io.maxFd < fdSetSize
  sock_ne : s.io.sock ≠ s.io.abortRecv
  not_client : s.client s.io.sock = none ∧ s.client s.io.abortRecv = none
  stray : s.stray = []
  tallied : Tallied s.client s.accepted s.served

namespace Books

variable {s t : Server} {p : Pass}

theorem init {r : Ring UInt64} {fd₀ fd₁ sock : Nat} {io : RingIo} (hsock : sock ≠ fd₁)
    (hroom : fd₀ < fdSetSize ∧ fd₁ < fdSetSize ∧ sock < fdSetSize)
    (hio : ringIoInit fd₀ fd₁ sock = some io) :
    Books ⟨io, r, true, fun _ => none, 0, [], []⟩ := by
  obtain ⟨h₀, h₁, h₂⟩ := hroom
  simp only [ringIoInit, fdSet, if_pos h₁, if_pos h₂, Option.bind_some, Option.map_some] at hio
  cases hio
  refine ⟨fun i => ?_, fun i hi => ?_, ?_, hsock, ⟨rfl, rfl⟩, rfl, .none⟩
  · simp [or_comm]
  · simp only [Finset.mem_insert, Finset.notMem_empty, or_false] at hi ⊢
    split <;> split <;> omega
  · show (if (if fd₀ > fd₁ then fd₀ else fd₁) > sock then _ else sock) < fdSetSize
    split <;> split <;> assumption

/-- A descriptor that no client has. -/
theorem opened (h : Books s) {i : Nat} (hsock : i ≠ s.io.sock) (habort : i ≠ s.io.abortRecv)
    (hfree : s.client i = none) (hroom : i < fdSetSize) :
    Books (s.opened i (insert i s.io.fds)) where
  fds j := by
    show j ∈ insert i s.io.fds ↔ j = s.io.sock ∨ j = s.io.abortRecv ∨
      (Function.update s.client i (some s.accepted) j).isSome = true
    rw [Finset.mem_insert, h.fds]
    by_cases hj : j = i
    · subst hj
      simp
    · rw [Function.update_of_ne hj]
      simp [hj]
  le_maxFd j hj := by
    show j ≤ if i > s.io.maxFd then i else s.io.maxFd
    rcases Finset.mem_insert.mp hj with rfl | hj
    · split <;> omega
    · have := h.le_maxFd j hj
      split <;> omega
  maxFd_lt := by
    show (if i > s.io.maxFd then i else s.io.maxFd) < fdSetSize
    split
    · exact hroom
    · exact h.maxFd_lt
  sock_ne := h.sock_ne
  not_client := ⟨(Function.update_of_ne hsock.symm ..).trans h.not_client.1,
    (Function.update_of_ne habort.symm ..).trans h.not_client.2⟩
  stray := h.stray
  tallied := h.tallied.opened hfree

/-- A client is served and closed. -/
theorem rioClient (h : Books s) {i c : Nat} (hi : s.client i = some c)
    (hst : s.rioClient p i = some t) :
    Books t ∧ t.served = s.served ++ [c] ∧ t.client = Function.update s.client i none := by
  unfold Server.rioClient at hst
  obtain ⟨r, _, rfl⟩ := Option.map_eq_some_iff.mp hst
  have hserved : s.served ++ (s.client i).toList = s.served ++ [c] := by rw [hi]; rfl
  have hne : ∀ j, s.client j = none → j ≠ i := by
    rintro j hj rfl
    rw [hi] at hj
    cases hj
  refine ⟨⟨fun j => ?_, fun j hj => ?_, h.maxFd_lt, h.sock_ne, ?_, ?_, ?_⟩, hserved, rfl⟩
  · show j ∈ s.io.fds.erase i ↔ j = s.io.sock ∨ j = s.io.abortRecv ∨
      (Function.update s.client i none j).isSome = true
    rw [Finset.mem_erase, h.fds]
    by_cases hj : j = i
    · subst hj
      have hsock : j ≠ s.io.sock := fun heq => hne _ h.not_client.1 heq.symm
      have habort : j ≠ s.io.abortRecv := fun heq => hne _ h.not_client.2 heq.symm
      simp [hsock, habort]
    · rw [Function.update_of_ne hj]
      simp [hj]
  · exact h.le_maxFd j (Finset.mem_of_mem_erase hj)
  · exact ⟨(Function.update_of_ne (hne _ h.not_client.1) ..).trans h.not_client.1,
      (Function.update_of_ne (hne _ h.not_client.2) ..).trans h.not_client.2⟩
  · show (if (s.client i).isNone then s.stray ++ [i] else s.stray) = []
    rw [hi]
    exact h.stray
  · show Tallied (Function.update s.client i none) s.accepted (s.served ++ (s.client i).toList)
    rw [hserved]
    exact h.tallied.closed hi

/-- What the loop over the descriptors `is` does: the ready ones are served, in that order. -/
theorem serve {ready : Finset Nat} {is : List Nat} (h : Books s) (hnodup : is.Nodup)
    (hready : ∀ i ∈ is, i ∈ ready → (s.client i).isSome = true)
    (hst : Server.serve p ready is s = some t) :
    Books t ∧ t.served = s.served ++ (is.filter (· ∈ ready)).filterMap s.client ∧
      ∀ i, t.client i = if i ∈ is ∧ i ∈ ready then none else s.client i := by
  induction is generalizing s with
  | nil =>
    cases hst
    exact ⟨h, by simp, by simp⟩
  | cons i is ih =>
    obtain ⟨hi, hnodup⟩ := List.nodup_cons.mp hnodup
    unfold Server.serve at hst
    split at hst
    · rename_i hmem
      obtain ⟨u, hu, hst⟩ := Option.bind_eq_some_iff.mp hst
      obtain ⟨c, hc⟩ := Option.isSome_iff_exists.mp (hready i (.head _) hmem)
      obtain ⟨hbooks, hserved, hclient⟩ := h.rioClient hc hu
      have hsame : ∀ j ∈ is, u.client j = s.client j := by
        intro j hj
        have hji : j ≠ i := by
          intro hji
          exact hi (hji ▸ hj)
        rw [hclient, Function.update_of_ne hji]
      obtain ⟨ht, hserved', hclient'⟩ := ih hbooks hnodup
        (fun j hj hjr => by rw [hsame j hj]; exact hready j (.tail _ hj) hjr) hst
      refine ⟨ht, ?_, ?_⟩
      · have hrest : (is.filter (· ∈ ready)).filterMap u.client =
            (is.filter (· ∈ ready)).filterMap s.client := by
          apply List.filterMap_congr
          intro j hj
          exact hsame j (List.mem_filter.mp hj).1
        rw [hserved', hserved, hrest, List.filter_cons_of_pos (by simpa using hmem),
          List.filterMap_cons_some hc, List.append_assoc, List.singleton_append]
      · intro j
        rw [hclient' j, hclient]
        by_cases hji : j = i
        · subst hji
          simp [hmem]
        · simp [hji]
    · rename_i hmem
      obtain ⟨ht, hserved', hclient'⟩ := ih h hnodup
        (fun j hj hjr => hready j (.tail _ hj) hjr) hst
      refine ⟨ht, ?_, ?_⟩
      · rw [hserved', List.filter_cons_of_neg (by simpa using hmem)]
      · intro j
        rw [hclient' j]
        by_cases hji : j = i
        · subst hji
          simp [hmem]
        · simp [hji]

end Books

/-! ## One pass -/

/-- The server after the listening socket was looked at. -/
def Server.polled (s : Server) (p : Pass) : Option Server :=
  if s.io.sock ∈ p.ready then s.rioAccept p.accepts else some s

theorem Server.rioWorker_eq (s : Server) (p : Pass) :
    s.rioWorker p = (s.polled p).bind fun u =>
      if u.io.abortRecv ∈ p.ready.erase s.io.sock then some { u with isRunning := false }
      else serve p (p.ready.erase s.io.sock) (List.range (u.io.maxFd + 1)) u := by
  unfold Server.rioWorker Server.polled
  by_cases h : s.io.sock ∈ p.ready
  · simp only [if_pos h]
  · simp only [if_neg h, Finset.erase_eq_of_notMem h]

/-- All that can happen there is that a connection is opened. -/
structure Polled (s : Server) (p : Pass) (u : Server) : Prop where
  books : Books u
  sock : u.io.sock = s.io.sock
  abortRecv : u.io.abortRecv = s.io.abortRecv
  maxFd : s.io.maxFd ≤ u.io.maxFd
  served : u.served = s.served
  ring : u.ring = s.ring
  client : ∀ i ∈ s.io.fds, u.client i = s.client i
  accepted : s.io.sock ∈ p.ready → ∀ i, p.accepts = some i → u.client i = some s.accepted

namespace Books

variable {s t : Server} {p : Pass}

/-- What `accept` returns is none of the descriptors `select` was asked about. -/
theorem notMem_fds (h : Books s) (hp : p.Offered s) {i : Nat} (hi : p.accepts = some i) :
    i ∉ s.io.fds := by
  obtain ⟨hsock, _, habort, hfree⟩ := hp.fresh i hi
  rw [h.fds]
  rintro (h | h | h)
  · exact hsock h
  · exact habort h
  · simp [hfree] at h

theorem exists_polled (h : Books s) (hp : p.Offered s) : ∃ u, s.polled p = some u ∧ Polled s p u := by
  unfold Server.polled
  split
  · rename_i hready
    cases ha : p.accepts with
    | none => exact ⟨s, rfl, h, rfl, rfl, Nat.le_refl _, rfl, rfl, fun _ _ => rfl, by simp [ha]⟩
    | some i =>
      obtain ⟨hsock, _, habort, hfree⟩ := hp.fresh i ha
      have hroom := hp.room i ha
      have hfds : s.rioAccept (some i) = some (s.opened i (insert i s.io.fds)) := by
        rw [Server.rioAccept, fdSet, if_pos hroom, Option.map_some]
      refine ⟨_, hfds, h.opened hsock habort hfree hroom, rfl, rfl, ?_, rfl, rfl, ?_, ?_⟩
      · show s.io.maxFd ≤ if i > s.io.maxFd then i else s.io.maxFd
        split <;> omega
      · intro j hj
        have hji : j ≠ i := by
          rintro rfl
          exact h.notMem_fds hp ha hj
        exact Function.update_of_ne hji ..
      · intro _ j hj
        cases ha.symm.trans hj
        exact Function.update_self ..
  · rename_i hready
    exact ⟨s, rfl, h, rfl, rfl, Nat.le_refl _, rfl, rfl, fun _ _ => rfl,
      fun hsock => absurd hsock hready⟩

/-- Of the ready descriptors the loop gets to clients only. -/
theorem client_of_ready (h : Books s) (hp : p.Offered s) (habort : s.io.abortRecv ∉ p.ready) {i : Nat}
    (hi : i ∈ p.ready.erase s.io.sock) : (s.client i).isSome = true := by
  obtain ⟨hsock, hready⟩ := Finset.mem_erase.mp hi
  rcases (h.fds i).mp (hp.ready i hready).1 with h | h | h
  · exact absurd h hsock
  · exact absurd (h ▸ hready) habort
  · exact h

end Books

/-- The clients that are ready, in the order of their descriptors. -/
def Pass.waiting (p : Pass) (s : Server) : List Nat :=
  (List.range (s.io.maxFd + 1)).filter (· ∈ p.ready.erase s.io.sock)

/-- A connection that was opened in between is not among them. -/
theorem Pass.waiting_eq {p : Pass} {s : Server} (hp : p.Offered s) {n : Nat} (hn : s.io.maxFd ≤ n) :
    (List.range (n + 1)).filter (· ∈ p.ready.erase s.io.sock) = p.waiting s := by
  obtain ⟨d, rfl⟩ := Nat.exists_eq_add_of_le hn
  have hsplit : s.io.maxFd + d + 1 = (s.io.maxFd + 1) + d := by omega
  rw [hsplit, List.range_add, List.filter_append, Pass.waiting, List.append_right_eq_self,
    List.filter_eq_nil_iff]
  intro i hi
  obtain ⟨k, _, rfl⟩ := List.mem_map.mp hi
  rw [decide_eq_true_eq]
  intro hmem
  have := (hp.ready _ (Finset.mem_of_mem_erase hmem)).2
  omega

/-- The requests of these clients, one after the other. -/
def Pass.requests (p : Pass) (is : List Nat) (r : Ring UInt64) : Option (Ring UInt64) :=
  is.foldlM (fun r i => rioClientRecv r p.now (p.stack i) (p.arrived i)) r

/-- The ring takes the requests, and the loop gets through if the ring does. -/
theorem Server.serve_ring (p : Pass) (ready : Finset Nat) (is : List Nat) (s : Server) :
    (serve p ready is s).map Server.ring = p.requests (is.filter (· ∈ ready)) s.ring := by
  induction is generalizing s with
  | nil => rfl
  | cons i is ih =>
    unfold serve
    by_cases hi : i ∈ ready
    · rw [if_pos hi, List.filter_cons_of_pos (by simpa using hi), Pass.requests, List.foldlM_cons,
        Server.rioClient]
      cases rioClientRecv s.ring p.now (p.stack i) (p.arrived i) with
      | none => rfl
      | some r => exact ih _
    · rw [if_neg hi, List.filter_cons_of_neg (by simpa using hi)]
      exact ih s

/-- Requests that are survived in any state are survived one after the other. -/
theorem Pass.requests_ne_none {p : Pass} {is : List Nat}
    (h : ∀ i ∈ is, ∀ r, rioClientRecv r p.now (p.stack i) (p.arrived i) ≠ none) (r : Ring UInt64) :
    p.requests is r ≠ none := by
  induction is generalizing r with
  | nil => nofun
  | cons i is ih =>
    obtain ⟨r', hr'⟩ := Option.ne_none_iff_exists'.mp (h i (.head _) r)
    rw [Pass.requests, List.foldlM_cons, hr']
    exact ih (fun j hj => h j (.tail _ hj)) r'

/-- What a pass does that is not told to abort. -/
structure Serves (s : Server) (p : Pass) (t : Server) : Prop where
  /-- the requests of the clients that are ready are taken, in the order of their descriptors -/
  served : t.served = s.served ++ (p.waiting s).filterMap s.client
  /-- by the ring -/
  ring : p.requests (p.waiting s) s.ring = some t.ring
  /-- and these clients are closed, but no other -/
  client : ∀ i ∈ s.io.fds, t.client i = if i ∈ p.ready then none else s.client i
  /-- and the one that has just been accepted waits for the next pass -/
  accepted : s.io.sock ∈ p.ready → ∀ i, p.accepts = some i → t.client i = some s.accepted

namespace Books

variable {s t : Server} {p : Pass}

/-- A pass that is not told to abort is the loop over the clients. -/
theorem rioWorker_of_notMem (h : Books s) (hp : p.Offered s) (hno : s.io.abortRecv ∉ p.ready) :
    ∃ u, Polled s p u ∧ s.rioWorker p =
      Server.serve p (p.ready.erase s.io.sock) (List.range (u.io.maxFd + 1)) u := by
  obtain ⟨u, hu, hpolled⟩ := h.exists_polled hp
  refine ⟨u, hpolled, ?_⟩
  rw [Server.rioWorker_eq, hu, Option.bind_some, hpolled.abortRecv, if_neg]
  exact fun hmem => hno (Finset.mem_of_mem_erase hmem)

theorem serves (h : Books s) (hp : p.Offered s) (hno : s.io.abortRecv ∉ p.ready)
    (hst : s.rioWorker p = some t) : Books t ∧ Serves s p t := by
  obtain ⟨u, hu, heq⟩ := h.rioWorker_of_notMem hp hno
  rw [heq] at hst
  have hclient : ∀ i ∈ p.ready.erase s.io.sock, u.client i = s.client i := by
    intro i hi
    exact hu.client i (hp.ready i (Finset.mem_of_mem_erase hi)).1
  obtain ⟨ht, hserved, hclosed⟩ := hu.books.serve List.nodup_range
    (fun i _ hi => by rw [hclient i hi]; exact h.client_of_ready hp hno hi) hst
  have hring := Server.serve_ring p (p.ready.erase s.io.sock) (List.range (u.io.maxFd + 1)) u
  rw [hst, Option.map_some, Pass.waiting_eq hp hu.maxFd, hu.ring] at hring
  refine ⟨ht, ⟨?_, hring.symm, ?_, ?_⟩⟩
  · rw [hserved, hu.served, Pass.waiting_eq hp hu.maxFd]
    refine congrArg _ (List.filterMap_congr ?_)
    intro i hi
    exact hclient i (by simpa using (List.mem_filter.mp hi).2)
  · intro i hi
    rw [hclosed i, hu.client i hi]
    by_cases hready : i ∈ p.ready
    · rw [if_pos hready]
      by_cases his : i = s.io.sock
      · subst his
        simp [h.not_client.1]
      · have hle := (hp.ready i hready).2
        have hmax := hu.maxFd
        rw [if_pos ⟨List.mem_range.mpr (by omega), Finset.mem_erase.mpr ⟨his, hready⟩⟩]
    · rw [if_neg hready, if_neg]
      intro hmem
      exact hready (Finset.mem_of_mem_erase hmem.2)
  · intro hsock i hi
    have hnew : i ∉ p.ready := fun hready => h.notMem_fds hp hi (hp.ready i hready).1
    rw [hclosed i, if_neg fun hmem => hnew (Finset.mem_of_mem_erase hmem.2)]
    exact hu.accepted hsock i hi

/-- A pass gets through if the requests are readable and none is a CLEAR. -/
theorem rioWorker_ne_none (h : Books s) (hp : p.Offered s) (hno : s.io.abortRecv ∉ p.ready)
    (hreq : ∀ i ∈ p.ready, i ≠ s.io.sock →
      Readable (p.stack i) (p.arrived i) ∧ (p.arrived i).getD 0 0 ≠ ringIoCmdClear) :
    s.rioWorker p ≠ none := by
  obtain ⟨u, hu, heq⟩ := h.rioWorker_of_notMem hp hno
  have hring := Server.serve_ring p (p.ready.erase s.io.sock) (List.range (u.io.maxFd + 1)) u
  rw [Pass.waiting_eq hp hu.maxFd] at hring
  intro hnone
  rw [heq] at hnone
  rw [hnone] at hring
  refine Pass.requests_ne_none (fun i hi r => ?_) u.ring hring.symm
  obtain ⟨hsock, hready⟩ := Finset.mem_erase.mp (of_decide_eq_true (List.mem_filter.mp hi).2)
  obtain ⟨hreadable, hclear⟩ := hreq i hready hsock
  exact rioClientRecv_ne_none hreadable hclear r p.now

/-- One pass. All it does to the ring is to hand it requests. -/
theorem rioWorker (h : Books s) (hp : p.Offered s) (hst : s.rioWorker p = some t) :
    Books t ∧ ∃ is, p.requests is s.ring = some t.ring := by
  by_cases hno : s.io.abortRecv ∈ p.ready
  · obtain ⟨u, hu, hpolled⟩ := h.exists_polled hp
    rw [Server.rioWorker_eq, hu, Option.bind_some, hpolled.abortRecv,
      if_pos (Finset.mem_erase.mpr ⟨h.sock_ne.symm, hno⟩)] at hst
    cases hst
    exact ⟨{ hpolled.books with }, [], congrArg some hpolled.ring.symm⟩
  · obtain ⟨ht, hserves⟩ := h.serves hp hno hst
    exact ⟨ht, _, hserves.ring⟩

end Books

/-! ## The ring -/

/-- A request is a command of the daemon, or none. -/
theorem daemon_of_rioClientRecv {host : ByteOrder} {r r' : Ring UInt64} {now : UInt64}
    {stack : RingIoReq} {arrived : List UInt8} (h : (daemon host).Reachable r)
    (hst : rioClientRecv r now stack arrived = some r') : (daemon host).Reachable r' := by
  unfold rioClientRecv at hst
  split at hst
  · cases hst
    exact h
  · rename_i c _
    exact h.step (e := .input ⟨now, .command c⟩) hst
  · cases hst

theorem daemon_of_requests {host : ByteOrder} {p : Pass} {is : List Nat} {r r' : Ring UInt64}
    (h : (daemon host).Reachable r) (hst : p.requests is r = some r') :
    (daemon host).Reachable r' := by
  induction is generalizing r with
  | nil =>
    cases hst
    exact h
  | cons i is ih =>
    rw [Pass.requests, List.foldlM_cons] at hst
    obtain ⟨u, hu, hst⟩ := Option.bind_eq_some_iff.mp hst
    exact ih (daemon_of_rioClientRecv h hu) hst

theorem books_of_reachable {host : ByteOrder} {s : Server} (h : (server host).Reachable s) :
    Books s ∧ (daemon host).Reachable s.ring := by
  refine h.invariant (I := fun s => Books s ∧ (daemon host).Reachable s.ring) ?_ ?_
  · intro s hs
    obtain ⟨hring, fd₀, fd₁, sock, _, _, hsock, hroom, hio, heq⟩ := hs
    refine ⟨?_, .init hring⟩
    rw [heq]
    exact .init hsock hroom hio
  · intro s e t _ hI hst
    obtain ⟨hb, hr⟩ := hI
    cases e with
    | main c =>
      obtain ⟨_, hst⟩ := hst
      obtain ⟨r, hstep, rfl⟩ := Option.map_eq_some_iff.mp hst
      exact ⟨{ hb with }, hr.step hstep⟩
    | control p =>
      obtain ⟨hp, hst⟩ := hst
      obtain ⟨ht, is, hring⟩ := hb.rioWorker hp hst
      exact ⟨ht, daemon_of_requests hr hring⟩

/-- **The server keeps its books**, and the ring goes through states of the daemon. -/
theorem keeps_books {host : ByteOrder} {s : Server} (h : (server host).Reachable s) :
    Books s ∧ (daemon host).Reachable s.ring :=
  books_of_reachable h

/-- The pipe is 3 and 4, the listening socket 5. -/
def idleServer : Server where
  io := { sock := 5, abortSend := 3, abortRecv := 4, fds := {4, 5}, maxFd := 5 }
  ring := started 0 owner (nodeId 1)
  isRunning := true
  client := fun _ => none
  accepted := 0
  served := []
  stray := []

/-- A stack of zeros. -/
def cleanStack : RingIoReq := ⟨List.replicate 8 0, rfl⟩

/-- Somebody connects. -/
def acceptPass : Pass := ⟨0, {5}, some 6, fun _ => [], fun _ => cleanStack⟩

/-- `ring-ctl ms port1`. -/
def msPort1 : List UInt8 := ringIoSendMsg cleanStack ringIoCmdMs ringIoPort1

/-- And asks for a Manual Switch. -/
def msPass : Pass := ⟨0, {6}, none, fun _ => msPort1, fun _ => cleanStack⟩

theorem init_idleServer : (server .little).init idleServer :=
  ⟨created_started owner (nodeId 1), 3, 4, 5, by simp, by simp, by simp, by simp [fdSetSize], rfl, rfl⟩

theorem exists_acceptPass :
    ∃ s, idleServer.rioWorker acceptPass = some s ∧ (server .little).Reachable s ∧
      s.client 6 = some 0 ∧ s.io.maxFd = 6 ∧ s.isRunning = true ∧ s.io.abortRecv = 4 := by
  have hstep : ∃ s, idleServer.rioWorker acceptPass = some s ∧ s.client 6 = some 0 ∧
      s.io.maxFd = 6 ∧ s.isRunning = true ∧ s.io.abortRecv = 4 := ⟨_, rfl, rfl, rfl, rfl, rfl⟩
  obtain ⟨s, hs, hrest⟩ := hstep
  have hoffered : acceptPass.Offered idleServer := by
    refine ⟨rfl, ?_, ?_, ?_⟩
    · intro i hi
      obtain rfl := Finset.mem_singleton.mp hi
      exact ⟨by simp [idleServer], Nat.le_refl 5⟩
    · intro i hi
      cases hi
      exact ⟨by simp [idleServer], by simp [idleServer], by simp [idleServer], rfl⟩
    · intro i hi
      cases hi
      simp [fdSetSize]
  exact ⟨s, hs, (Lts.Reachable.init init_idleServer).step (e := .control acceptPass) ⟨hoffered, hs⟩,
    hrest⟩

theorem keeps_books_acceptPass :
    ∃ s, idleServer.rioWorker acceptPass = some s ∧ (server .little).Reachable s ∧ Books s := by
  obtain ⟨s, hs, hr, _⟩ := exists_acceptPass
  exact ⟨s, hs, hr, (keeps_books hr).1⟩

/-- **Who is ready is served**, if the pass gets through; and it does if the requests are readable and
none of them is a CLEAR. -/
theorem serves_ready {host : ByteOrder} {s : Server} {p : Pass} (h : (server host).Reachable s)
    (hp : p.Offered s) (habort : s.io.abortRecv ∉ p.ready) :
    (∀ t, s.rioWorker p = some t → Serves s p t) ∧
      ((∀ i ∈ p.ready, i ≠ s.io.sock →
          Readable (p.stack i) (p.arrived i) ∧ (p.arrived i).getD 0 0 ≠ ringIoCmdClear) →
        ∃ t, s.rioWorker p = some t) := by
  have hb := (books_of_reachable h).1
  constructor
  · intro t hst
    exact (hb.serves hp habort hst).2
  · intro hreq
    exact Option.ne_none_iff_exists'.mp (hb.rioWorker_ne_none hp habort hreq)

/-- The connection that was accepted first is served first. -/
theorem serves_ready_msPass :
    ∃ s t, idleServer.rioWorker acceptPass = some s ∧ s.rioWorker msPass = some t ∧
      Serves s msPass t := by
  obtain ⟨s, hs, hr, hclient, hmax, hrun, habort⟩ := exists_acceptPass
  have hbooks := (books_of_reachable hr).1
  have hfds : 6 ∈ s.io.fds := (hbooks.fds 6).mpr (.inr (.inr (by simp [hclient])))
  have hoffered : msPass.Offered s := by
    refine ⟨hrun, ?_, ?_, ?_⟩
    · intro i hi
      obtain rfl := Finset.mem_singleton.mp hi
      exact ⟨hfds, hmax.ge⟩
    · intro i hi
      cases hi
    · intro i hi
      cases hi
  have hno : s.io.abortRecv ∉ msPass.ready := by
    rw [habort]
    simp [msPass]
  have hserves := serves_ready hr hoffered hno
  have hcode : msPort1.getD 0 0 ≠ ringIoCmdClear := by
    rw [msPort1, cmd_ringIoSendMsg]
    simp [ringIoCmdMs, ringIoCmdClear]
  obtain ⟨t, ht⟩ := hserves.2 fun i _ _ =>
    ⟨.port ⟨.inr rfl, by simp [msPass, cleanStack]⟩, hcode⟩
  exact ⟨s, t, hs, ht, hserves.1 t ht⟩

end Erps.Sim
