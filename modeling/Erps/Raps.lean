import Mathlib.Order.Nat
import Mathlib.Tactic.IntervalCases
import Erps.Lib.Bytes

/-!
# R-APS frames: the codec and the classifiers

The frame codec of the simulator (`ring_raps.c`, and the two classifiers at the top of
`ringd.c`) and of the kernel module (`er_raps.c`). The two copies agree word for word, so each
pair is one definition here, named without its prefix.

Frames are byte lists and `data + o` is the offset `o`. `READ_BYTE` is modelled as it is written:
a 16-bit load in the byte order of the host, of which each use keeps what its mask and the type it
is assigned to leave. `READ_WORD` and `WRITE_WORD` go through `ntohs`/`htons` and are big-endian on
every host.
-/

set_option autoImplicit false

namespace Erps

open Bytes

/-! ## Node ids -/

/-- A node id, `uint8_t node_id[6]`. -/
structure NodeId where
  bytes : List UInt8
  length_eq : bytes.length = 6
  deriving DecidableEq, Repr

namespace NodeId

/-- The six bytes at `data + o`. -/
def ofBytes (data : List UInt8) (o : Nat) : NodeId :=
  ⟨[data.getD o 0, data.getD (o + 1) 0, data.getD (o + 2) 0,
    data.getD (o + 3) 0, data.getD (o + 4) 0, data.getD (o + 5) 0], rfl⟩

/-- `memset(id, 0, 6)`. -/
def zero : NodeId := ⟨[0, 0, 0, 0, 0, 0], rfl⟩

theorem ext_bytes {a b : NodeId} (h : a.bytes = b.bytes) : a = b := by
  cases a; cases b; simpa using h

theorem rank_injective : Function.Injective fun a : NodeId => beNat a.bytes := by
  intro a b h
  exact ext_bytes (beNat_inj (a.length_eq.trans b.length_eq.symm) h)

/-- Node ids are ordered as the 48-bit numbers they spell. -/
instance : LinearOrder NodeId := LinearOrder.lift' (fun a => beNat a.bytes) rank_injective

/-- The order of `memcmp` is this order: what every tie-break of the protocol is about. -/
theorem memcmp_neg_iff (a b : NodeId) : memcmp a.bytes b.bytes < 0 ↔ a < b :=
  Bytes.memcmp_neg_iff (a.length_eq.trans b.length_eq.symm)

theorem memcmp_eq_zero_iff (a b : NodeId) : memcmp a.bytes b.bytes = 0 ↔ a = b := by
  rw [Bytes.memcmp_eq_zero_iff (a.length_eq.trans b.length_eq.symm)]
  exact ⟨ext_bytes, congrArg NodeId.bytes⟩

end NodeId

/-! ## The message -/

/-- `enum raps_request`. -/
inductive RapsRequest
  | nr
  | ms
  | sf
  | fs
  | event
  deriving DecidableEq, Repr

/-- The value of the enumerator. -/
def RapsRequest.code : RapsRequest → UInt8
  | .nr => 0b0000
  | .ms => 0b0111
  | .sf => 0b1011
  | .fs => 0b1101
  | .event => 0b1110

def rapsFlagDnf : UInt8 := 0x40
def rapsFlagRb : UInt8 := 0x80

/-- `struct ri_raps` / `struct er_raps`. The `node_id` pointer is the id it points to: the ring's
own id in the nested structure, which nothing writes after creation, and six bytes of the frame in a
parsed one. -/
structure Raps where
  ringId : UInt8
  vid : UInt16
  version : UInt8
  flags : UInt8
  request : RapsRequest
  subcode : UInt8
  nodeId : NodeId
  deriving DecidableEq, Repr

/-- The flag test `flags & RAPS_FLAG_RB`. -/
def hasRb (flags : UInt8) : Bool := flags &&& rapsFlagRb != 0

@[simp] theorem hasRb_zero : hasRb 0 = false := rfl

/-- The flag test `flags & RAPS_FLAG_DNF`. -/
def hasDnf (flags : UInt8) : Bool := flags &&& rapsFlagDnf != 0

@[simp] theorem hasDnf_zero : hasDnf 0 = false := rfl

/-! ## Reading -/

/-- `READ_BYTE(data + o)`: despite its name a 16-bit load. -/
def readByte (host : ByteOrder) (data : List UInt8) (o : Nat) : UInt16 := load16 host data o

/-- `READ_WORD(data + o)`. -/
def readWord (host : ByteOrder) (data : List UInt8) (o : Nat) : UInt16 :=
  ntohs host (load16 host data o)

/-- The least frame length, `ri_raps_get_len` / `er_raps_get_len`. -/
def rapsGetLen : Nat := 55

/-- `data += 14`, and four more past a dot1q header. -/
def cfmOffset (host : ByteOrder) (data : List UInt8) : Nat :=
  if readWord host data 12 = 0x8100 then 18 else 14

/-- The request nibble the parser lets through. -/
def parseRequest (request : UInt8) : Option RapsRequest :=
  if request = RapsRequest.nr.code then some .nr
  else if request = RapsRequest.ms.code then some .ms
  else if request = RapsRequest.fs.code then some .fs
  else if request = RapsRequest.sf.code then some .sf
  else none

/-- `ri_raps_parse` / `er_raps_parse`; `none` is the return value `false`. -/
def rapsParse (host : ByteOrder) (data : List UInt8) : Option Raps :=
  if data.length < 55 then none
  else
    let ringId := (readByte host data 5).toUInt8
    let o := cfmOffset host data
    let version := (readByte host data o &&& 0x1f).toUInt8
    if version > 2 then none
    else
      let cfmOpCode := (readByte host data (o + 1)).toUInt8
      if cfmOpCode ≠ 40 then none
      else
        let request := ((readByte host data (o + 4) &&& 0xf0) >>> 4).toUInt8
        match parseRequest request with
        | none => none
        | some request =>
          let flags := (readByte host data (o + 5) &&& 0xe0).toUInt8
          some { ringId, vid := 0, version := 0, flags, request, subcode := 0,
                 nodeId := NodeId.ofBytes data (o + 6) }

/-! ## Writing -/

/-- `WRITE_BYTE(data + o, x)`. -/
def writeByte (data : List UInt8) (o : Nat) (x : UInt8) : List UInt8 := overwrite data o [x]

/-- `WRITE_WORD(data + o, x)`: `htons` leaves the high byte first on every host. -/
def writeWord (data : List UInt8) (o : Nat) (x : UInt16) : List UInt8 :=
  overwrite data o [(x >>> 8).toUInt8, x.toUInt8]

/-- `ri_raps_encode` / `er_raps_encode`: the return value and the buffer afterwards. -/
def rapsEncode (frame : Raps) (data : List UInt8) (maxLen : Nat) : Bool × List UInt8 :=
  if maxLen < 55 then (false, data)
  else
    let data := overwrite data 0 (List.replicate 55 0)
    -- ethernet 2
    let data := overwrite data 0 [0x01, 0x19, 0xa7, 0x00, 0x00]
    let data := writeByte data 5 frame.ringId
    let data := overwrite data 6 frame.nodeId.bytes
    let data := writeWord data 12 0x8100
    -- 802.1q
    let data := writeWord data 14 frame.vid
    let data := writeWord data 16 0x8902
    -- CFM OAM
    let data := writeByte data 18 0x02
    let data := writeByte data 19 40
    let data := writeByte data 21 32
    -- R-APS specific information
    let data := writeByte data 22 (frame.request.code <<< 4 ||| frame.subcode)
    let data := writeByte data 23 frame.flags
    let data := overwrite data 24 frame.nodeId.bytes
    (true, data)

/-- The 55 bytes an encode writes. -/
def rapsBytes (frame : Raps) : List UInt8 :=
  [(0x01 : UInt8), 0x19, 0xa7, 0x00, 0x00, frame.ringId] ++ frame.nodeId.bytes ++
    [(0x81 : UInt8), 0x00, (frame.vid >>> 8).toUInt8, frame.vid.toUInt8, 0x89, 0x02,
     0x02, 40, 0, 32, frame.request.code <<< 4 ||| frame.subcode, frame.flags] ++
    frame.nodeId.bytes ++ List.replicate 25 0

/-! ## Classifying -/

/-- `is_erps_frame` / `er_is_raps_frame`. -/
def isRapsFrame (data : List UInt8) : Bool :=
  if data.length < 55 then false
  else memcmp (data.take 5) [0x01, 0x19, 0xa7, 0x00, 0x00] == 0

/-- `is_local_erps_frame` / `er_is_local_raps_frame`. -/
def isLocalRapsFrame (host : ByteOrder) (data : List UInt8) (nodeId : NodeId) : Bool :=
  if data.length < 55 then false
  else memcmp (NodeId.ofBytes data (cfmOffset host data + 6)).bytes nodeId.bytes == 0

/-! ## What the encoder writes is what the parser reads -/

/-- Six bytes, spelled out. -/
theorem NodeId.exists_bytes (a : NodeId) :
    ∃ b₀ b₁ b₂ b₃ b₄ b₅, a.bytes = [b₀, b₁, b₂, b₃, b₄, b₅] := by
  obtain ⟨bs, hlen⟩ := a
  match bs, hlen with
  | [b₀, b₁, b₂, b₃, b₄, b₅], _ => exact ⟨b₀, b₁, b₂, b₃, b₄, b₅, rfl⟩

/-- An encode into a buffer that is long enough writes its first 55 bytes and nothing after them. -/
theorem rapsEncode_eq (frame : Raps) (data : List UInt8) {maxLen : Nat} (hmax : 55 ≤ maxLen) :
    rapsEncode frame data maxLen = (true, rapsBytes frame ++ data.drop 55) := by
  obtain ⟨b₀, b₁, b₂, b₃, b₄, b₅, hb⟩ := frame.nodeId.exists_bytes
  have hmax' : ¬ maxLen < 55 := by omega
  have htag : ((0x8100 : UInt16) >>> 8).toUInt8 = 0x81 := by decide
  have hcfm : ((0x8902 : UInt16) >>> 8).toUInt8 = 0x89 := by decide
  simp [rapsEncode, hmax', writeByte, writeWord, rapsBytes, hb, overwrite, List.replicate, htag,
    hcfm]

@[simp] theorem rapsBytes_length (frame : Raps) : (rapsBytes frame).length = 55 := by
  simp [rapsBytes, frame.nodeId.length_eq]

/-- Encoded frames carry the tag, so both hosts look for the CFM header past it. -/
theorem cfmOffset_rapsBytes (host : ByteOrder) (frame : Raps) :
    cfmOffset host (rapsBytes frame) = 18 := by
  obtain ⟨b₀, b₁, b₂, b₃, b₄, b₅, hb⟩ := frame.nodeId.exists_bytes
  have h₀ : (rapsBytes frame).getD 12 0 = 0x81 := by simp [rapsBytes, hb]
  have h₁ : (rapsBytes frame).getD 13 0 = 0x00 := by simp [rapsBytes, hb]
  have htag : readWord host (rapsBytes frame) 12 = 0x8100 := by
    simp only [readWord, load16, h₀, h₁]
    cases host <;> decide
  simp [cfmOffset, htag]

theorem isRapsFrame_rapsBytes (frame : Raps) : isRapsFrame (rapsBytes frame) = true := by
  have hhead : (rapsBytes frame).take 5 = [0x01, 0x19, 0xa7, 0x00, 0x00] := by
    simp [rapsBytes]
  simp only [isRapsFrame, rapsBytes_length, hhead]
  rfl

/-- The node id is read back from the offset it was written to. -/
theorem ofBytes_rapsBytes (frame : Raps) :
    NodeId.ofBytes (rapsBytes frame) 24 = frame.nodeId := by
  obtain ⟨b₀, b₁, b₂, b₃, b₄, b₅, hb⟩ := frame.nodeId.exists_bytes
  apply NodeId.ext_bytes
  simp [NodeId.ofBytes, rapsBytes, hb]

/-- A frame is local to the node whose id it was encoded with, and to no other. -/
theorem isLocalRapsFrame_rapsBytes (host : ByteOrder) (frame : Raps) (nodeId : NodeId) :
    isLocalRapsFrame host (rapsBytes frame) nodeId = true ↔ nodeId = frame.nodeId := by
  have hid : NodeId.ofBytes (rapsBytes frame) (18 + 6) = frame.nodeId := ofBytes_rapsBytes frame
  simp only [isLocalRapsFrame, rapsBytes_length, cfmOffset_rapsBytes, hid]
  simp only [Nat.lt_irrefl, if_false, beq_iff_eq, NodeId.memcmp_eq_zero_iff]
  exact eq_comm

/-- The request nibble of the shared octet, past the mask and the shift of the parser. -/
theorem nibble_toUInt8 (x : UInt16) :
    ((x &&& 0xf0) >>> 4).toUInt8 = (x.toUInt8 &&& 0xf0) >>> 4 := by
  apply UInt8.toBitVec_inj.mp
  ext i hi
  interval_cases i <;> simp

theorem nibble_of_or (code subcode : UInt8) (hsub : subcode < 16) :
    ((code <<< 4 ||| subcode) &&& 0xf0) >>> 4 = code &&& 0x0f := by
  have hbits : ∀ i (_ : i < 8), 4 ≤ i → subcode.toBitVec[i] = false := by
    intro i _ hi
    apply Nat.testBit_lt_two_pow
    have : subcode.toNat < 16 := UInt8.lt_iff_toNat_lt.mp hsub
    calc subcode.toNat < 2 ^ 4 := this
      _ ≤ 2 ^ i := Nat.pow_le_pow_right (by decide) hi
  apply UInt8.toBitVec_inj.mp
  ext i hi
  interval_cases i <;> simp [hbits]

theorem parseRequest_code {request : RapsRequest} (hreq : request ≠ .event) :
    parseRequest (request.code &&& 0x0f) = some request := by
  cases request with
  | event => exact absurd rfl hreq
  | nr | ms | sf | fs => rfl

/-- **The round trip on a little-endian host.** Everything the receiver uses comes back: the ring
id, the request, the three flag bits and the node id. -/
theorem rapsParse_rapsBytes_little (frame : Raps) (hsub : frame.subcode < 16)
    (hreq : frame.request ≠ .event) :
    rapsParse .little (rapsBytes frame) =
      some { ringId := frame.ringId, vid := 0, version := 0, flags := frame.flags &&& 0xe0,
             request := frame.request, subcode := 0, nodeId := frame.nodeId } := by
  obtain ⟨b₀, b₁, b₂, b₃, b₄, b₅, hb⟩ := frame.nodeId.exists_bytes
  have hid := ofBytes_rapsBytes frame
  have hring : (rapsBytes frame).getD 5 0 = frame.ringId := by simp [rapsBytes]
  have hver : (rapsBytes frame).getD 18 0 = 2 := by simp [rapsBytes, hb]
  have hop : (rapsBytes frame).getD 19 0 = 40 := by simp [rapsBytes, hb]
  have hcode : (rapsBytes frame).getD 22 0 = frame.request.code <<< 4 ||| frame.subcode := by
    simp [rapsBytes, hb]
  have hflags : (rapsBytes frame).getD 23 0 = frame.flags := by simp [rapsBytes, hb]
  simp only [rapsParse, rapsBytes_length, cfmOffset_rapsBytes, readByte, UInt16.toUInt8_and,
    nibble_toUInt8, load16_little_toUInt8, hring, hver, hop, hcode, hflags, hid,
    nibble_of_or _ _ hsub, parseRequest_code hreq]
  rfl

/-- A big-endian host takes the op code for the version and lets no encoded frame through. -/
theorem rapsParse_rapsBytes_big (frame : Raps) : rapsParse .big (rapsBytes frame) = none := by
  obtain ⟨b₀, b₁, b₂, b₃, b₄, b₅, hb⟩ := frame.nodeId.exists_bytes
  have hop : (rapsBytes frame).getD 19 0 = 40 := by simp [rapsBytes, hb]
  simp only [rapsParse, rapsBytes_length, cfmOffset_rapsBytes, readByte, UInt16.toUInt8_and,
    load16_big_toUInt8, hop]
  rfl

end Erps
