import Erps.Ring.Announce

/-!
# The frame on the air

A node sends the bytes of `raps_frame`, and the other nodes know nothing else of it. `Framed` says
that the buffer spells the message the node means to send; every row keeps it, because `start_tx`
encodes whatever it changes. With the round trip of the codec, a receiver that gets anything out of
such a frame gets the request and the node id of its sender (`ringRequest_of_parse`).
-/

set_option autoImplicit false

namespace Erps

open Bytes

variable {τ : Type}

/-! ## What a receiver reads -/

theorem hasRb_mask (flags : UInt8) : hasRb (flags &&& 0xe0) = hasRb flags := by
  unfold hasRb rapsFlagRb
  rw [UInt8.and_assoc]
  rfl

/-- On either host a receiver reads what was meant, or nothing at all. -/
theorem ringRequest_of_parse {host : ByteOrder} {frame raps : Raps} (hsub : frame.subcode = 0)
    (hreq : frame.request ≠ .event) (h : rapsParse host (rapsBytes frame) = some raps) :
    raps.nodeId = frame.nodeId ∧ raps.ringRequest = frame.ringRequest := by
  cases host with
  | big =>
    rw [rapsParse_rapsBytes_big] at h
    cases h
  | little =>
    have hlt : frame.subcode < 16 := by
      rw [hsub]
      decide
    rw [rapsParse_rapsBytes_little frame hlt hreq, Option.some.injEq] at h
    subst h
    refine ⟨rfl, ?_⟩
    unfold Raps.ringRequest
    simp only [hasRb_mask]

/-! ## What a sender writes -/

/-- The buffer has the size of a frame, and the nested message the fields no row changes. -/
structure Transmission.Sized (tx : Transmission) (id : NodeId) : Prop where
  frame_length : tx.rapsFrame.length = 55
  frameLen : tx.rapsFrameLen = 55
  subcode : tx.raps.subcode = 0
  nodeId : tx.raps.nodeId = id

/-- The buffer spells the nested message. -/
structure Transmission.Framed (tx : Transmission) (id : NodeId) : Prop where
  frame : tx.rapsFrame = rapsBytes tx.raps
  frameLen : tx.rapsFrameLen = 55
  subcode : tx.raps.subcode = 0
  nodeId : tx.raps.nodeId = id
  request : tx.raps.request ≠ .event

namespace Transmission

variable {tx : Transmission} {id : NodeId} {request : RapsRequest} {flags : UInt8}

theorem Framed.sized (h : tx.Framed id) : tx.Sized id where
  frame_length := by
    rw [h.frame]
    exact rapsBytes_length _
  frameLen := h.frameLen
  subcode := h.subcode
  nodeId := h.nodeId

/-- `start_tx` encodes a message that differs from the last one. -/
theorem Sized.start (h : tx.Sized id) (hreq : request ≠ .event)
    (hne : tx.raps.request ≠ request ∨ tx.raps.flags ≠ flags) :
    (tx.start request flags).Framed id := by
  unfold Transmission.start
  rw [if_pos hne]
  refine ⟨?_, h.frameLen, h.subcode, h.nodeId, hreq⟩
  have hlen : 55 ≤ tx.rapsFrameLen := by rw [h.frameLen]
  have hdrop : tx.rapsFrame.drop 55 = [] := List.drop_of_length_le (by rw [h.frame_length])
  simp only [rapsEncode_eq _ _ hlen, hdrop, List.append_nil]

theorem Framed.start (h : tx.Framed id) (hreq : request ≠ .event) :
    (tx.start request flags).Framed id := by
  by_cases hne : tx.raps.request ≠ request ∨ tx.raps.flags ≠ flags
  · exact h.sized.start hreq hne
  · unfold Transmission.start
    rw [if_neg hne]
    exact ⟨h.frame, h.frameLen, h.subcode, h.nodeId, h.request⟩

theorem Framed.apply (h : tx.Framed id) {e : TxEffect}
    (he : ∀ request flags, e = .start request flags → request ≠ .event) :
    (e.apply tx).Framed id := by
  cases e with
  | keep => exact h
  | start request flags => exact h.start (he request flags rfl)
  | stop => exact ⟨h.frame, h.frameLen, h.subcode, h.nodeId, h.request⟩

end Transmission

namespace Ring

/-- The node's buffer spells its message, under its own id. -/
def Framed (r : Ring τ) : Prop := r.tx.Framed r.cfg.nodeId

theorem Framed.advance {r : Ring τ} (h : r.Framed) (now : τ) (req : RingRequest)
    (port : Option PortId) (remote : Option NodeId) : (r.advance now req port remote).Framed := by
  unfold Framed
  rw [advance_tx, advance_cfg]
  refine Transmission.Framed.apply h ?_
  intro request flags he hevent
  subst hevent
  rcases r.effect_start req port remote he with h | ⟨_, h⟩ | ⟨_, h⟩ | ⟨_, h⟩ <;> cases h

end Ring

end Erps
