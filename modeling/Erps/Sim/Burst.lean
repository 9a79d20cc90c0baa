import Erps.Sim.Runs

/-!
# Bursts

A message goes out three times in quick succession and every five seconds from then on. `start_tx`
orders the burst if the message differs from the one it encoded last, whether that one is still being
transmitted or not: `burst_of_new` says so of every callback in every run, `send_raps_cb` included.
So a failure that comes back after the node has fallen silent in between is announced without a burst.
-/

set_option autoImplicit false

namespace Erps

/-- The message `start_tx` encoded last. -/
def Transmission.last (tx : Transmission) : RapsRequest × UInt8 := (tx.raps.request, tx.raps.flags)

/-- Only a start makes the node transmit what it did not transmit before. -/
theorem TxEffect.eq_start {e : TxEffect} {tx : Transmission} {m : RapsRequest × UInt8}
    (hm : (e.apply tx).sending = some m) (hnew : tx.sending ≠ some m) : e = .start m.1 m.2 := by
  cases e with
  | keep => exact absurd hm hnew
  | stop => cases hm
  | start request flags =>
    rw [TxEffect.apply_sending] at hm
    cases hm
    rfl

namespace Transmission

variable {tx : Transmission} {m : RapsRequest × UInt8}

theorem last_of_sending (h : tx.sending = some m) : tx.last = m := by
  unfold sending at h
  split at h
  · exact Option.some.inj h
  · cases h

theorem bursts_start_of_ne (h : tx.last ≠ m) : (tx.start m.1 m.2).rapsBurstsRemain = 3 := by
  have hne : tx.raps.request ≠ m.1 ∨ tx.raps.flags ≠ m.2 := by
    by_contra hcon
    simp only [ne_eq, not_or, not_not] at hcon
    exact h (Prod.ext hcon.1 hcon.2)
  unfold start
  rw [if_pos hne]

theorem bursts_start_of_eq (h : tx.last = m) :
    (tx.start m.1 m.2).rapsBurstsRemain = tx.rapsBurstsRemain := by
  subst h
  unfold start last
  rw [if_neg (by simp)]

end Transmission

namespace Sim

variable {host : Bytes.ByteOrder}

/-! ## The daemon -/

/-- What the event loop runs: a callback of the node, or `send_raps_cb`. -/
inductive Callback
  | input (i : Input)
  | sendRaps

def react (host : Bytes.ByteOrder) (r : Ring UInt64) : Callback → Option (Ring UInt64)
  | .input i => handle host r i
  | .sendRaps => some (sendRapsCb r).1

/-- **The daemon**: the node, transmitting. -/
def daemon (host : Bytes.ByteOrder) : Lts (Ring UInt64) Callback := .ofStep Created (react host)

theorem coherent_of_reachable {r : Ring UInt64} (h : (daemon host).Reachable r) : Coherent r := by
  refine h.invariant ?_ ?_
  · intro r hr
    have hcreated : Created r := hr
    exact hcreated.coherent
  · intro r c r' _ hc hst
    cases c with
    | input i => exact (handle_outcome hc hst).coherent hc
    | sendRaps =>
      cases hst
      exact hc.congr (alike_sendRapsCb r)

/-- What a callback does to the transmission is what some row does to it. -/
theorem Outcome.tx {r r' : Ring UInt64} {i : Input} (h : Outcome host r i r') :
    ∃ e : TxEffect, r'.tx = e.apply r.tx := by
  cases h with
  | still => exact ⟨.keep, prepare_tx r i.event⟩
  | taken =>
    rename_i t q hq ht hw
    refine ⟨((i.event.prepare r).effect q.request q.port q.remoteNodeId).tx, ?_⟩
    rw [← prepare_tx r i.event]
    rfl

/-- **Which announcements are bursted.** A callback after which the node transmits a message it did
not transmit before orders a burst if another message was transmitted or encoded last, and leaves the
burst counter alone if it is the last one again. -/
theorem burst_of_new {r r' : Ring UInt64} {c : Callback} {m : RapsRequest × UInt8}
    (hr : (daemon host).Reachable r) (hst : (daemon host).step r c r') (hm : r'.sending = some m)
    (hnew : r.sending ≠ some m) :
    (r.sending ≠ none ∨ r.tx.last ≠ m → r'.tx.rapsBurstsRemain = 3) ∧
      (r.tx.last = m → r'.tx.rapsBurstsRemain = r.tx.rapsBurstsRemain) := by
  cases c with
  | sendRaps =>
    cases hst
    rw [(alike_sendRapsCb r).sending] at hm
    exact absurd hm hnew
  | input i =>
    obtain ⟨e, he⟩ := (handle_outcome (coherent_of_reachable hr) hst).tx
    have hstart : e = .start m.1 m.2 := by
      unfold Ring.sending at hm hnew
      rw [he] at hm
      exact TxEffect.eq_start hm hnew
    rw [he, hstart]
    refine ⟨?_, Transmission.bursts_start_of_eq⟩
    intro h
    refine Transmission.bursts_start_of_ne ?_
    rcases h with hsend | hlast
    · -- what is transmitted is what was encoded last
      obtain ⟨m', hm'⟩ := Option.ne_none_iff_exists'.mp hsend
      intro hl
      rw [hm', ← Transmission.last_of_sending hm', hl] at hnew
      exact hnew rfl
    · exact hlast

/-- A failure interrupts the R-APS(NR) of a fresh node with a burst of its own. -/
theorem burst_of_new_plain :
    ∃ r, handle .little (started 0 plain (nodeId 1)) ⟨1000, .command (.fail .port1)⟩ = some r ∧
      r.tx.rapsBurstsRemain = 3 := by
  have hstep : ∃ r, handle .little (started 0 plain (nodeId 1)) ⟨1000, .command (.fail .port1)⟩ =
      some r ∧ r.sending = some (.sf, 0) := ⟨_, rfl, rfl⟩
  obtain ⟨r, hr, hsend⟩ := hstep
  have hnew : (started 0 plain (nodeId 1)).sending ≠ some (.sf, 0) := by
    intro h
    cases h
  refine ⟨r, hr, ?_⟩
  have hreach : (daemon .little).Reachable (started 0 plain (nodeId 1)) :=
    .init (created_started plain (nodeId 1))
  have hfail : (daemon .little).step (started 0 plain (nodeId 1))
      (.input ⟨1000, .command (.fail .port1)⟩) r := hr
  refine (burst_of_new hreach hfail hsend hnew).1 (.inl ?_)
  intro h
  cases h

/-- A failure is announced, its burst goes out, a forced switch elsewhere silences the node, the link
recovers, and the forced switch is cleared. -/
def silencedFailure : List Callback :=
  [.input ⟨1000, .command (.fail .port1)⟩, .sendRaps, .sendRaps, .sendRaps,
    .input ⟨2000, .frame (rapsOf 2 .fs 0) .port0⟩, .input ⟨3000, .command (.recover .port1)⟩,
    .input ⟨4000, .frame (rapsOf 2 .nr 0) .port0⟩]

/-- The link fails again, and the node starts to transmit R-APS(SF) without a burst. -/
theorem burst_of_new_counterexample :
    ¬ ∀ (host : Bytes.ByteOrder) (r r' : Ring UInt64) (c : Callback) (m : RapsRequest × UInt8),
      (daemon host).Reachable r → (daemon host).step r c r' → r'.sending = some m →
      r.sending ≠ some m → r'.tx.rapsBurstsRemain = 3 := by
  intro h
  have hrun : ∃ r r', Lts.exec (react .little) (started 0 plain (nodeId 1)) silencedFailure = some r ∧
      handle .little r ⟨5000, .command (.fail .port1)⟩ = some r' ∧ r.sending = none ∧
      r'.sending = some (.sf, 0) ∧ r'.tx.rapsBurstsRemain = 0 :=
    ⟨_, _, rfl, rfl, rfl, rfl, rfl⟩
  obtain ⟨r, r', hr, hr', hnone, hsend, hbursts⟩ := hrun
  have hreach : (daemon .little).Reachable r :=
    ⟨_, _, created_started plain (nodeId 1), Lts.run_of_exec hr⟩
  have hthree := h .little r r' (.input ⟨5000, .command (.fail .port1)⟩) (.sf, 0) hreach hr' hsend
    (by simp [hnone])
  rw [hbursts] at hthree
  cases hthree

end Sim

end Erps
