import Erps.Raps

/-!
# The R-APS format

The format on the wire, stated without the parser: where the header starts, which bytes decide, and
what the fields are. `READ_BYTE` keeps the low byte of a 16-bit load, which is the byte it names on a
little-endian host and the one after it on a big-endian one. So the parser reads this format `skew`
bytes further on (`rapsParse_isSome_iff`), and that is the format of the frame itself on one kind of
host only (`readsFormat_iff`). There it undoes the encoder (`rapsParse_rapsEncode`).
-/

set_option autoImplicit false

namespace Erps

open Bytes

/-! ## The format -/

/-- Where the CFM header starts: past the tag, if bytes 12 and 13 announce one. -/
def header (data : List UInt8) : Nat :=
  if data.getD 12 0 = 0x81 ∧ data.getD 13 0 = 0x00 then 18 else 14

/-- The request codes a receiver knows. -/
def requestCodes : List UInt8 := [0, 7, 11, 13]

/-- An R-APS message, if its CFM header starts at `o`. -/
structure InFormat (data : List UInt8) (o : Nat) : Prop where
  length : 55 ≤ data.length
  version : data.getD o 0 &&& 0x1f ≤ 2
  opCode : data.getD (o + 1) 0 = 40
  request : data.getD (o + 4) 0 >>> 4 ∈ requestCodes

/-- The header starts in one place only: 40 is no version. -/
theorem InFormat.not_succ {data : List UInt8} {o : Nat} (h : InFormat data o) :
    ¬ InFormat data (o + 1) := by
  intro h'
  have hver := h'.version
  rw [h.opCode] at hver
  exact absurd hver (by decide)

/-! ## What the parser reads -/

/-- How far behind its address `READ_BYTE` reads. -/
def skew : ByteOrder → Nat
  | .little => 0
  | .big => 1

theorem readByte_toUInt8 (host : ByteOrder) (data : List UInt8) (o : Nat) :
    (readByte host data o).toUInt8 = data.getD (o + skew host) 0 := by
  cases host with
  | little => exact load16_little_toUInt8 data o
  | big => exact load16_big_toUInt8 data o

/-- Both hosts find the tag. -/
theorem cfmOffset_eq (host : ByteOrder) (data : List UInt8) : cfmOffset host data = header data := by
  have hword : readWord host data 12 = 0x8100 ↔ data.getD 12 0 = 0x81 ∧ data.getD 13 0 = 0x00 := by
    have htag : (0x8100 : UInt16) = ((0x81 : UInt8).toUInt16 <<< 8) ||| (0x00 : UInt8).toUInt16 :=
      rfl
    rw [readWord, ntohs_load16, htag]
    exact word_eq_iff
  unfold cfmOffset header
  simp only [hword]

theorem nibble_eq (x : UInt8) : (x &&& 0xf0) >>> 4 = x >>> 4 := by
  apply UInt8.toBitVec_inj.mp
  ext i hi
  interval_cases i <;> simp

theorem parseRequest_eq_some_iff {x : UInt8} {request : RapsRequest} :
    parseRequest x = some request ↔ request.code = x ∧ x ∈ requestCodes := by
  unfold parseRequest requestCodes
  constructor
  · intro h
    split at h
    · cases h
      exact ⟨by simp [*], by simp [*, RapsRequest.code]⟩
    · split at h
      · cases h
        exact ⟨by simp [*], by simp [*, RapsRequest.code]⟩
      · split at h
        · cases h
          exact ⟨by simp [*], by simp [*, RapsRequest.code]⟩
        · split at h
          · cases h
            exact ⟨by simp [*], by simp [*, RapsRequest.code]⟩
          · cases h
  · intro h
    obtain ⟨rfl, hmem⟩ := h
    cases request with
    | event => simp [RapsRequest.code] at hmem
    | nr | ms | sf | fs => rfl

/-- **What the parser accepts**, and what it makes of it: the format, `skew` bytes further on. Only
the node id is read byte by byte, and from the right place. -/
theorem rapsParse_eq_some_iff {host : ByteOrder} {data : List UInt8} {raps : Raps} :
    rapsParse host data = some raps ↔
      InFormat data (header data + skew host) ∧
      ∃ request : RapsRequest,
        request.code = data.getD (header data + 4 + skew host) 0 >>> 4 ∧
        raps = { ringId := data.getD (5 + skew host) 0, vid := 0, version := 0,
                 flags := data.getD (header data + 5 + skew host) 0 &&& 0xe0,
                 request := request, subcode := 0,
                 nodeId := NodeId.ofBytes data (header data + 6) } := by
  have hbyte := readByte_toUInt8 host data
  have hver : (readByte host data (header data) &&& 0x1f).toUInt8 =
      data.getD (header data + skew host) 0 &&& 0x1f := by
    rw [UInt16.toUInt8_and, hbyte]
    rfl
  have hcode : ((readByte host data (header data + 4) &&& 0xf0) >>> 4).toUInt8 =
      data.getD (header data + 4 + skew host) 0 >>> 4 := by
    rw [nibble_toUInt8, hbyte, nibble_eq]
  have hflags : (readByte host data (header data + 5) &&& 0xe0).toUInt8 =
      data.getD (header data + 5 + skew host) 0 &&& 0xe0 := by
    rw [UInt16.toUInt8_and, hbyte]
    rfl
  unfold rapsParse
  simp only [cfmOffset_eq, hver, hcode, hflags, hbyte]
  have hswap : ∀ k, header data + skew host + k = header data + k + skew host := by
    intro k
    omega
  constructor
  · intro h
    split at h
    · cases h
    · rename_i hlen
      split at h
      · cases h
      · rename_i hv
        split at h
        · cases h
        · rename_i hop
          split at h
          · cases h
          · rename_i request hreq
            obtain ⟨hcode, hmem⟩ := parseRequest_eq_some_iff.mp hreq
            cases h
            refine ⟨⟨by omega, ?_, ?_, ?_⟩, request, hcode, rfl⟩
            · simpa using hv
            · rw [hswap]
              simpa using hop
            · rwa [hswap]
  · intro h
    obtain ⟨hf, request, hcode, rfl⟩ := h
    have hlen := hf.length
    have hop := hf.opCode
    have hmem := hf.request
    rw [hswap] at hop hmem
    have hreq := parseRequest_eq_some_iff.mpr ⟨hcode, hmem⟩
    rw [if_neg (by omega), if_neg (by simpa using hf.version), if_neg (by simpa using hop), hreq]

theorem rapsParse_isSome_iff {host : ByteOrder} {data : List UInt8} :
    (rapsParse host data).isSome = true ↔ InFormat data (header data + skew host) := by
  rw [Option.isSome_iff_exists]
  constructor
  · intro h
    obtain ⟨raps, h⟩ := h
    exact (rapsParse_eq_some_iff.mp h).1
  · intro h
    have hswap : header data + skew host + 4 = header data + 4 + skew host := by omega
    have hmem := h.request
    rw [hswap] at hmem
    obtain ⟨request, hcode⟩ : ∃ request : RapsRequest,
        request.code = data.getD (header data + 4 + skew host) 0 >>> 4 := by
      simp only [requestCodes, List.mem_cons, List.not_mem_nil, or_false] at hmem
      rcases hmem with hmem | hmem | hmem | hmem <;> rw [hmem]
      · exact ⟨.nr, rfl⟩
      · exact ⟨.ms, rfl⟩
      · exact ⟨.sf, rfl⟩
      · exact ⟨.fs, rfl⟩
    exact ⟨_, rapsParse_eq_some_iff.mpr ⟨h, request, hcode, rfl⟩⟩

/-! ## Parsers of the format -/

/-- On this frame the parser and the test for the node's own frames read the format. -/
structure ReadsFormat (host : ByteOrder) (data : List UInt8) : Prop where
  accepts : (rapsParse host data).isSome = true ↔ InFormat data (header data)
  fields : ∀ raps, rapsParse host data = some raps →
    raps.ringId = data.getD 5 0 ∧ raps.request.code = data.getD (header data + 4) 0 >>> 4 ∧
      raps.flags = data.getD (header data + 5) 0 &&& 0xe0 ∧
      raps.nodeId = NodeId.ofBytes data (header data + 6)
  own : ∀ nodeId, isLocalRapsFrame host data nodeId = true ↔
    55 ≤ data.length ∧ NodeId.ofBytes data (header data + 6) = nodeId

/-- The test for the node's own frames is right on every host. -/
theorem isLocalRapsFrame_iff (host : ByteOrder) (data : List UInt8) (nodeId : NodeId) :
    isLocalRapsFrame host data nodeId = true ↔
      55 ≤ data.length ∧ NodeId.ofBytes data (header data + 6) = nodeId := by
  unfold isLocalRapsFrame
  rw [cfmOffset_eq]
  split
  · rename_i hlen
    constructor
    · intro h
      cases h
    · intro h
      omega
  · rename_i hlen
    rw [beq_iff_eq, NodeId.memcmp_eq_zero_iff]
    exact ⟨fun h => ⟨by omega, h⟩, fun h => h.2⟩

/-- **Where the parser reads its format**: on every little-endian host, and on a big-endian one where
it has nothing to accept, neither the frame nor what is one byte further on. -/
theorem readsFormat_iff (host : ByteOrder) (data : List UInt8) :
    ReadsFormat host data ↔ host = .little ∨
      (¬ InFormat data (header data) ∧ ¬ InFormat data (header data + 1)) := by
  cases host with
  | little =>
    refine iff_of_true ⟨rapsParse_isSome_iff, ?_, isLocalRapsFrame_iff _ _⟩ (.inl rfl)
    intro raps h
    obtain ⟨_, request, hcode, rfl⟩ := rapsParse_eq_some_iff.mp h
    exact ⟨rfl, hcode, rfl, rfl⟩
  | big =>
    have hacc : (rapsParse .big data).isSome = true ↔ InFormat data (header data + 1) :=
      rapsParse_isSome_iff
    constructor
    · intro h
      refine .inr ⟨?_, ?_⟩
      · intro hf
        exact hf.not_succ (hacc.mp (h.accepts.mpr hf))
      · intro hf
        exact (h.accepts.mp (hacc.mpr hf)).not_succ hf
    · intro h
      rcases h with h | ⟨hf, hf'⟩
      · cases h
      · have hnone : rapsParse .big data = none := by
          rw [← Option.not_isSome_iff_eq_none, hacc]
          exact hf'
        refine ⟨⟨fun h => absurd (hacc.mp h) hf', fun h => absurd h hf⟩, ?_,
          isLocalRapsFrame_iff _ _⟩
        intro raps h
        rw [hnone] at h
        cases h

/-- An R-APS(SF) of ring 1. -/
def sfFrame : List UInt8 := rapsBytes ⟨1, 100, 0, 0, .sf, 0, .zero⟩

/-- A big-endian host lets no R-APS(SF) through. -/
theorem readsFormat_counterexample :
    ¬ ∀ (host : ByteOrder) (data : List UInt8), ReadsFormat host data := by
  intro h
  have hf : InFormat sfFrame (header sfFrame) := by
    refine ⟨(rapsBytes_length _).ge, ?_, rfl, ?_⟩
    · exact Nat.le_refl 2
    · exact .tail _ (.tail _ (.head _))
  have hsome := (h .big sfFrame).accepts.mpr hf
  rw [sfFrame, rapsParse_rapsBytes_big] at hsome
  cases hsome

/-! ## The encoder -/

/-- **Decode undoes encode.** -/
theorem rapsParse_rapsEncode {frame : Raps} (hreq : frame.request ≠ .event)
    (hsub : frame.subcode < 16) (hflags : frame.flags &&& 0x1f = 0) {data : List UInt8}
    (hlen : 55 ≤ data.length) :
    ∃ out, rapsEncode frame data data.length = (true, out) ∧
      isRapsFrame (out.take 55) = true ∧
      (∃ raps, rapsParse .little (out.take 55) = some raps ∧ raps.ringId = frame.ringId ∧
        raps.request = frame.request ∧ raps.flags = frame.flags ∧ raps.nodeId = frame.nodeId) ∧
      ∀ nodeId, isLocalRapsFrame .little (out.take 55) nodeId = true ↔ nodeId = frame.nodeId := by
  have hmask : frame.flags &&& 0xe0 = frame.flags := by
    calc frame.flags &&& 0xe0
        = (frame.flags &&& 0xe0) ||| (frame.flags &&& 0x1f) := by rw [hflags, UInt8.or_zero]
      _ = frame.flags &&& (0xe0 ||| 0x1f) := (UInt8.toBitVec_inj.mp BitVec.and_or_distrib_left).symm
      _ = frame.flags := UInt8.and_neg_one
  have htake : (rapsBytes frame ++ data.drop 55).take 55 = rapsBytes frame := by
    rw [List.take_append_of_le_length (rapsBytes_length frame).ge, List.take_of_length_le]
    exact (rapsBytes_length frame).le
  refine ⟨_, rapsEncode_eq frame data hlen, ?_⟩
  rw [htake]
  refine ⟨isRapsFrame_rapsBytes frame, ⟨_, rapsParse_rapsBytes_little frame hsub hreq, rfl, rfl, ?_,
    rfl⟩, fun nodeId => isLocalRapsFrame_rapsBytes .little frame nodeId⟩
  exact hmask

/-- An R-APS(NR,RB) in a buffer of 60 bytes. -/
theorem rapsParse_rapsEncode_nrRb :
    ∃ raps, rapsParse .little
      ((rapsEncode ⟨1, 100, 0, rapsFlagRb, .nr, 0, .zero⟩ (List.replicate 60 0) 60).2.take 55) =
        some raps ∧ raps.request = .nr ∧ raps.flags = rapsFlagRb := by
  obtain ⟨out, hout, _, ⟨raps, hraps, _, hreq, hflags, _⟩, _⟩ :=
    @rapsParse_rapsEncode ⟨1, 100, 0, rapsFlagRb, .nr, 0, .zero⟩ (by simp) (by simp) rfl
      (List.replicate 60 0) (by simp)
  rw [List.length_replicate] at hout
  rw [hout]
  exact ⟨raps, hraps, hreq, hflags⟩

end Erps
