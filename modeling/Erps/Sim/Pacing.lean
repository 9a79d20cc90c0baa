import Erps.Sim.Burst
import Erps.Sim.Hops

/-!
# The pace of the announcements

`send_raps_cb` is called when `raps_timer_watcher` runs out, and sets the `repeat` of the watcher
itself: 10 ms while a burst lasts, five seconds otherwise. `paced` is the daemon with a record of what
it has put on its ports. The burst counter counts the copies of the message that have gone out, and
nothing else: the first three leave the timer at 10 ms, every later one at five seconds (`paces`), and
however often the node changes its mind, no more than three frames for each change do the former.
-/

set_option autoImplicit false

namespace Erps

/-- A row leaves the buffer alone, or encodes another message and orders a burst. -/
theorem TxEffect.apply_cases (e : TxEffect) (tx : Transmission) :
    ((e.apply tx).raps = tx.raps ∧ (e.apply tx).rapsFrame = tx.rapsFrame ∧
        (e.apply tx).rapsBurstsRemain = tx.rapsBurstsRemain) ∨
      ((e.apply tx).last ≠ tx.last ∧ (e.apply tx).rapsBurstsRemain = 3) := by
  cases e with
  | keep | stop => exact .inl ⟨rfl, rfl, rfl⟩
  | start request flags =>
    show ((tx.start request flags).raps = tx.raps ∧ (tx.start request flags).rapsFrame = tx.rapsFrame ∧
        (tx.start request flags).rapsBurstsRemain = tx.rapsBurstsRemain) ∨
      ((tx.start request flags).last ≠ tx.last ∧ (tx.start request flags).rapsBurstsRemain = 3)
    unfold Transmission.start
    split
    · rename_i hne
      refine .inr ⟨?_, rfl⟩
      intro heq
      have hlast : (request, flags) = tx.last := heq
      cases hlast
      rcases hne with h | h <;> exact h rfl
    · exact .inl ⟨rfl, rfl, rfl⟩

namespace Sim

variable {host : Bytes.ByteOrder}

/-! ## What goes out -/

/-- What `send_raps_cb` leaves in `raps_timer_watcher.timer.repeat`, in milliseconds. -/
def rapsTimerRepeat (r : Ring UInt64) (timerRepeat : Nat) : Nat :=
  if !r.tx.isSendingRaps then timerRepeat
  else if r.tx.rapsBurstsRemain > 0 then 10
  else 5000

/-- What the node has put on its ports. -/
structure Output where
  /-- The frames sent since the message was last changed, oldest first. -/
  copies : List (List UInt8)
  timerRepeat : Nat
  /-- How often the message was changed. -/
  changes : Nat
  /-- How many frames were sent that left the timer at 10 ms. -/
  fast : Nat

/-- `ev_timer_init` of `main`. -/
def Output.none : Output := ⟨[], 1000, 0, 0⟩

def Output.after (r : Ring UInt64) (c : Callback) (r' : Ring UInt64) (o : Output) : Output :=
  match c with
  | .sendRaps =>
    let sent := (sendRapsCb r).2.toList
    { o with
      copies := o.copies ++ sent
      timerRepeat := rapsTimerRepeat r o.timerRepeat
      fast := if rapsTimerRepeat r o.timerRepeat = 10 then o.fast + sent.length else o.fast }
  | .input _ =>
    if r'.tx.last = r.tx.last then o
    else { o with copies := [], changes := o.changes + 1 }

/-- The daemon, and what it sends. -/
def paced (host : Bytes.ByteOrder) : Lts (Ring UInt64 × Output) Callback :=
  (daemon host).history .none Output.after

/-! ## The burst counter counts the copies -/

/-- `raps_bursts_remain` is what the copies leave of three. -/
structure Paced (r : Ring UInt64) (o : Output) : Prop where
  framed : r.Framed
  bursts : r.tx.rapsBurstsRemain = 3 - o.copies.length
  copies : ∀ data ∈ o.copies, data = rapsBytes r.tx.raps
  timerRepeat : o.copies ≠ [] → o.timerRepeat = if o.copies.length ≤ 3 then 10 else 5000
  fast : o.fast + r.tx.rapsBurstsRemain ≤ 3 * (o.changes + 1)

theorem sendRapsCb_of_sending {r : Ring UInt64} (hs : r.tx.isSendingRaps = true) :
    ∃ n, n = r.tx.rapsBurstsRemain - 1 ∧
      sendRapsCb r = ({ r with tx := { r.tx with rapsBurstsRemain := n } }, some r.tx.rapsFrame) := by
  unfold sendRapsCb
  rw [if_neg (by simp [hs])]
  split
  · exact ⟨_, rfl, rfl⟩
  · exact ⟨r.tx.rapsBurstsRemain, by omega, rfl⟩

namespace Paced

variable {r r' : Ring UInt64} {o : Output}

/-- Row 01 encodes its R-APS(NR) whatever `ring_create` left in the buffer. -/
theorem created (h : Created r) : Paced r .none := by
  obtain ⟨now, nodeId, role, rfl⟩ := h.exists_started
  have hburst : (started now role nodeId).tx.rapsBurstsRemain = 3 := rfl
  refine ⟨framed_started now role nodeId, hburst, ?_, ?_, ?_⟩
  · intro data hdata
    cases hdata
  · intro hne
    exact absurd rfl hne
  · rw [hburst]
    decide

/-- A callback that changes the message starts a new count, any other leaves it. -/
theorem input (h : Paced r o) {i : Input} (ho : Outcome host r i r') :
    Paced r' (o.after r (.input i) r') := by
  have hframed := ho.framed h.framed
  obtain ⟨e, he⟩ := ho.tx
  rcases e.apply_cases r.tx with ⟨hraps, hframe, hbursts⟩ | ⟨hlast, hbursts⟩
  · rw [← he] at hraps hframe hbursts
    have hsame : r'.tx.last = r.tx.last := by
      unfold Transmission.last
      rw [hraps]
    have hafter : o.after r (.input i) r' = o := if_pos hsame
    rw [hafter]
    refine ⟨hframed, hbursts.trans h.bursts, ?_, h.timerRepeat, ?_⟩
    · rw [hraps]
      exact h.copies
    · rw [hbursts]
      exact h.fast
  · rw [← he] at hlast hbursts
    have hafter : o.after r (.input i) r' = { o with copies := [], changes := o.changes + 1 } :=
      if_neg hlast
    rw [hafter]
    have hfast := h.fast
    refine ⟨hframed, hbursts, ?_, ?_, ?_⟩
    · intro data hdata
      cases hdata
    · intro hne
      exact absurd rfl hne
    · show o.fast + r'.tx.rapsBurstsRemain ≤ 3 * (o.changes + 1 + 1)
      omega

/-- A transmission takes one from the burst and adds one to the copies. -/
theorem sendRaps (h : Paced r o) :
    Paced (sendRapsCb r).1 (o.after r .sendRaps (sendRapsCb r).1) := by
  by_cases hs : r.tx.isSendingRaps = true
  · obtain ⟨n, hn, hcb⟩ := sendRapsCb_of_sending hs
    have hbursts := h.bursts
    have hrepeat : rapsTimerRepeat r o.timerRepeat = if o.copies.length ≤ 2 then 10 else 5000 := by
      unfold rapsTimerRepeat
      rw [if_neg (by simp [hs]), hbursts]
      split <;> split <;> omega
    have hafter : o.after r .sendRaps (sendRapsCb r).1 =
        ⟨o.copies ++ [r.tx.rapsFrame], if o.copies.length ≤ 2 then 10 else 5000, o.changes,
          if o.copies.length ≤ 2 then o.fast + 1 else o.fast⟩ := by
      unfold Output.after
      simp only [hcb, hrepeat, Option.toList_some, List.length_singleton]
      split <;> rfl
    rw [hafter, hcb]
    refine ⟨⟨h.framed.frame, h.framed.frameLen, h.framed.subcode, h.framed.nodeId, h.framed.request⟩,
      ?_, ?_, ?_, ?_⟩
    · show n = 3 - (o.copies ++ [r.tx.rapsFrame]).length
      rw [List.length_append, List.length_singleton]
      omega
    · intro data hdata
      rcases List.mem_append.mp hdata with hold | hnew
      · exact h.copies data hold
      · rw [List.mem_singleton.mp hnew]
        exact h.framed.frame
    · intro _
      show (if o.copies.length ≤ 2 then 10 else 5000) =
        if (o.copies ++ [r.tx.rapsFrame]).length ≤ 3 then 10 else 5000
      simp only [List.length_append, List.length_singleton, Nat.reduceLeDiff]
    · show (if o.copies.length ≤ 2 then o.fast + 1 else o.fast) + n ≤ 3 * (o.changes + 1)
      have hfast := h.fast
      split <;> omega
  · have hkeep : sendRapsCb r = (r, none) := by
      unfold sendRapsCb
      rw [if_pos (by simp [hs])]
    have hafter : o.after r .sendRaps (sendRapsCb r).1 = o := by
      unfold Output.after
      simp [hkeep, rapsTimerRepeat, hs]
    rw [hafter, hkeep]
    exact h

theorem of_reachable (h : (paced host).Reachable (r, o)) : Paced r o := by
  refine h.invariant (I := fun s => Paced s.1 s.2) ?_ ?_
  · rintro ⟨r, o⟩ ⟨hr, rfl⟩
    exact created hr
  · rintro ⟨r, o⟩ c ⟨r', o'⟩ hreach hpaced ⟨hst, hout⟩
    have hout : o' = o.after r c r' := hout
    subst hout
    cases c with
    | input i =>
      exact hpaced.input (handle_outcome (coherent_of_reachable hreach.of_history) hst)
    | sendRaps =>
      cases hst
      exact hpaced.sendRaps

end Paced

/-- **The pace of the announcements.** At any time all that went out since the message was last
changed are copies of the message, the burst counter is what they leave of three, each of the first
three left the timer at 10 ms and every later one at five seconds, and in all no more than three frames
for each change did the former. -/
theorem paces {r : Ring UInt64} {o : Output} (h : (paced host).Reachable (r, o)) :
    (∀ data ∈ o.copies, data = rapsBytes r.tx.raps) ∧
      r.tx.rapsBurstsRemain = 3 - o.copies.length ∧
      (o.copies ≠ [] → o.timerRepeat = if o.copies.length ≤ 3 then 10 else 5000) ∧
      o.fast ≤ 3 * (o.changes + 1) := by
  have hp := Paced.of_reachable h
  exact ⟨hp.copies, hp.bursts, hp.timerRepeat, Nat.le_of_add_right_le hp.fast⟩

/-- A fresh node, left alone: the fourth copy is the first that leaves the timer at five seconds. -/
theorem paces_fourCopies : ∃ (r : Ring UInt64) (o : Output),
    (paced .little).Reachable (r, o) ∧ o.copies.length = 4 ∧ o.timerRepeat = 5000 ∧ o.fast = 3 ∧
      ∀ data ∈ o.copies, data = rapsBytes r.tx.raps := by
  have hinit : (paced .little).Reachable (started 0 plain (nodeId 1), .none) :=
    .init ⟨created_started plain (nodeId 1), rfl⟩
  have hsend : ∀ {r : Ring UInt64} {o : Output}, (paced .little).Reachable (r, o) →
      (paced .little).Reachable ((sendRapsCb r).1, o.after r .sendRaps (sendRapsCb r).1) :=
    fun h => h.step (e := .sendRaps) ⟨rfl, rfl⟩
  have hfour := hsend (hsend (hsend (hsend hinit)))
  exact ⟨_, _, hfour, rfl, rfl, rfl, (paces hfour).1⟩

end Sim

end Erps
