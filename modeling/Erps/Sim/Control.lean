import Erps.Sim.Node

/-!
# The control socket: `ring-ctl.c` and the receiving half of `rio_client`

A request travels as the memory of a `struct ring_io_req`: one byte `cmd`, three bytes of padding, and
the four bytes of `param`, the least significant first. `ring-ctl` sends all eight of them.
`rio_client` takes `sizeof(uint8_t)+sizeof(int)`, which is five, over a structure on its stack: three
of the four bytes of `param` are whatever the stack held.

So a request with a port is understood when these three are zero, and only then (`understands_iff`);
otherwise it is executed with a null port.
-/

set_option autoImplicit false

namespace Erps.Sim

open Bytes

/-! ## `struct ring_io_req` -/

/-- The memory of a `struct ring_io_req`. -/
structure RingIoReq where
  bytes : List UInt8
  size : bytes.length = 8

namespace RingIoReq

variable (req : RingIoReq)

/-- `req.cmd`. -/
def cmd : UInt8 := req.bytes.getD 0 0

/-- `req.param`. -/
def param : Int32 := Int32.ofNat (leNat (req.bytes.drop 4))

/-- `memcpy((uint8_t *)&req + o, bs, n)`. -/
def store (o : Nat) (bs : List UInt8) (h : o + bs.length ≤ 8) : RingIoReq where
  bytes := overwrite req.bytes o bs
  size := by rw [length_overwrite (by rw [req.size]; exact h), req.size]

/-- `req.cmd = code`. -/
def setCmd (code : UInt8) : RingIoReq := req.store 0 [code] (by simp)

/-- `req.param = arg`. -/
def setParam (arg : Int32) : RingIoReq := req.store 4 (leBytes 4 arg.toUInt32.toNat) (by simp)

end RingIoReq

/-! ## `ring_io.h` -/

def ringIoPort0 : Int32 := 0xF0
def ringIoPort1 : Int32 := 0xF1

def ringIoCmdStatus : UInt8 := 0x01
def ringIoCmdClear : UInt8 := 0x02
def ringIoCmdMs : UInt8 := 0x03
def ringIoCmdFs : UInt8 := 0x04
def ringIoCmdFail : UInt8 := 0x05
def ringIoCmdRecover : UInt8 := 0x06

/-! ## `ring-ctl` -/

/-- `ring_io_send_msg`: what it sends. The structure is not initialised, `stack` is what it holds. -/
def ringIoSendMsg (stack : RingIoReq) (code : UInt8) (arg : Int32) : List UInt8 :=
  ((stack.setCmd code).setParam arg).bytes

/-- The optional port of the command line; `none` is `exit_usage`. -/
def ringCtlPort : Option String → Option Int32
  | none => some 0
  | some portName =>
    if portName = "port0" then some ringIoPort0
    else if portName = "port1" then some ringIoPort1
    else none

/-- `main` of `ring-ctl`: the code and the argument of the message it sends, if any. -/
def ringCtl (cmd : String) (portName : Option String) : Option (UInt8 × Int32) :=
  match ringCtlPort portName with
  | none => none
  | some port =>
    if cmd = "clear" then some (ringIoCmdClear, 0)
    else if cmd = "info" ∨ cmd = "status" then some (ringIoCmdStatus, 0)
    -- "error: port not specified"
    else if port = 0 then none
    else if cmd = "fs" then some (ringIoCmdFs, port)
    else if cmd = "ms" then some (ringIoCmdMs, port)
    else if cmd = "fail" then some (ringIoCmdFail, port)
    else if cmd = "recover" then some (ringIoCmdRecover, port)
    else none

/-- The word for a port. -/
def portWord : PortId → String
  | .port0 => "port0"
  | .port1 => "port1"

/-- What the `usage` text promises of a command line. -/
inductive Asks (portName : Option String) : String → Command → Prop
  | status : Asks portName "status" .status
  | info : Asks portName "info" .status
  | clear : Asks portName "clear" .clear
  | ms {p : PortId} (h : portName = some (portWord p)) : Asks portName "ms" (.ms p)
  | fs {p : PortId} (h : portName = some (portWord p)) : Asks portName "fs" (.fs p)
  | fail {p : PortId} (h : portName = some (portWord p)) : Asks portName "fail" (.fail p)
  | recover {p : PortId} (h : portName = some (portWord p)) : Asks portName "recover" (.recover p)

/-! ## `rio_client` -/

/-- What `rio_client` makes of a message: nothing, a command, or a command over a null port. -/
inductive Received
  | nothing
  | exec (c : Command)
  | nullPort
  deriving DecidableEq, Repr

/-- The port of a parameter. -/
def portOf (param : Int32) : Option PortId :=
  let port := none
  let port := if param = ringIoPort0 then some .port0 else port
  if param = ringIoPort1 then some .port1 else port

/-- A command that takes a port, over the pointer `port`. -/
def overPort (command : PortId → Command) : Option PortId → Received
  | none => .nullPort
  | some p => .exec (command p)

/-- The `switch` of `rio_client`. -/
def dispatch (cmd : UInt8) (port : Option PortId) : Received :=
  if cmd = ringIoCmdStatus then .exec .status
  else if cmd = ringIoCmdClear then .exec .clear
  else if cmd = ringIoCmdMs then overPort .ms port
  else if cmd = ringIoCmdFs then overPort .fs port
  else if cmd = ringIoCmdFail then overPort .fail port
  else if cmd = ringIoCmdRecover then overPort .recover port
  else .nothing

/-- `rio_client` on the bytes that have arrived, over the `stack` it finds `req` in. -/
def received (stack : RingIoReq) (arrived : List UInt8) : Received :=
  -- `recv(sock, buf, sizeof(uint8_t)+sizeof(int), 0)`
  let buf := arrived.take 5
  if h : buf.length = 5 then
    let req := stack.store 0 buf (by omega)
    dispatch req.cmd (portOf req.param)
  -- "got invalid request"
  else .nothing

/-- `rio_client` on the ring. Reading the name of a null port is the end of the process. -/
def rioClientRecv (r : Ring UInt64) (now : UInt64) (stack : RingIoReq) (arrived : List UInt8) :
    Option (Ring UInt64) :=
  match received stack arrived with
  | .nothing => some r
  | .exec c => rioClient r now c
  | .nullPort => none

/-! ## What is understood -/

/-- What `rio_client` does with the ring when it executes a command: the request it hands over, with the
port of the command and no other, whatever the ring and the time. -/
def Executes (stack : RingIoReq) (arrived : List UInt8) : Command → Prop
  | .status => ∀ r now, rioClientRecv r now stack arrived = some r
  | .clear =>
    ∀ r now, rioClientRecv r now stack arrived = ringProcessRequest r now .clear none none
  | .ms p =>
    ∀ r now, rioClientRecv r now stack arrived = ringProcessRequest r now .ms (some p) none
  | .fs p =>
    ∀ r now, rioClientRecv r now stack arrived = ringProcessRequest r now .fs (some p) none
  | .fail p => ∀ r now, rioClientRecv r now stack arrived =
      ringProcessRequest (r.setFailed p true) now .sf (some p) none
  | .recover p => ∀ r now, rioClientRecv r now stack arrived =
      ringProcessRequest (r.setFailed p false) now .clearSf (some p) none

/-- A message that `ring-ctl` sent is executed as the command it was asked for, on the port it named;
and of any message at all `rio_client` makes nothing, or one of its commands on one of the two ports. -/
structure Understands (stack : RingIoReq) (arrived : List UInt8) : Prop where
  sent : ∀ cmd portName sender code arg c, Asks portName cmd c →
    ringCtl cmd portName = some (code, arg) → arrived = ringIoSendMsg sender code arg →
    Executes stack arrived c
  lawful : (∀ r now, rioClientRecv r now stack arrived = some r) ∨ ∃ c, Executes stack arrived c

/-- A code whose command takes a port. -/
def TakesPort (code : UInt8) : Prop :=
  code = ringIoCmdMs ∨ code = ringIoCmdFs ∨ code = ringIoCmdFail ∨ code = ringIoCmdRecover

/-- The byte of `param` that arrives names a port, and the stack holds zeros for the rest of it. -/
structure NamesPort (stack : RingIoReq) (arrived : List UInt8) : Prop where
  port : arrived.getD 4 0 = 0xF0 ∨ arrived.getD 4 0 = 0xF1
  rest : ∀ b ∈ stack.bytes.drop 5, b = 0

/-- **What a request must look like**: it is too short to be looked at, its command takes no port, or
it names one over a clean stack. -/
inductive Readable (stack : RingIoReq) (arrived : List UInt8) : Prop
  | short (h : arrived.length < 5)
  | noPort (h : ¬ TakesPort (arrived.getD 0 0))
  | port (h : NamesPort stack arrived)

/-! ## The command of a message -/

namespace Command

def code : Command → UInt8
  | .status => ringIoCmdStatus
  | .clear => ringIoCmdClear
  | .ms _ => ringIoCmdMs
  | .fs _ => ringIoCmdFs
  | .fail _ => ringIoCmdFail
  | .recover _ => ringIoCmdRecover

def port : Command → Option PortId
  | .status | .clear => none
  | .ms p | .fs p | .fail p | .recover p => some p

theorem takesPort_code {c : Command} {p : PortId} (h : c.port = some p) : TakesPort c.code := by
  cases c with
  | status => cases h
  | clear => cases h
  | ms _ => exact .inl rfl
  | fs _ => exact .inr (.inl rfl)
  | fail _ => exact .inr (.inr (.inl rfl))
  | recover _ => exact .inr (.inr (.inr rfl))

/-- The `switch` undoes the code, if the port pointer is right where it is looked at. -/
theorem dispatch_code {c : Command} {port : Option PortId}
    (h : ∀ p, c.port = some p → port = some p) : dispatch c.code port = .exec c := by
  cases c with
  | status => rfl
  | clear => rfl
  | ms p => rw [h p rfl]; rfl
  | fs p => rw [h p rfl]; rfl
  | fail p => rw [h p rfl]; rfl
  | recover p => rw [h p rfl]; rfl

end Command

/-- The byte that a port has in a message. -/
def portByte : PortId → UInt8
  | .port0 => 0xF0
  | .port1 => 0xF1

theorem ringCtlPort_portWord (p : PortId) :
    ringCtlPort (some (portWord p)) = some (Int32.ofNat (portByte p).toNat) := by
  cases p <;> simp [ringCtlPort, portWord, portByte, ringIoPort0, ringIoPort1]

/-- `ring-ctl` sends the code of what it is asked for, and the port if there is one. -/
theorem ringCtl_of_asks {portName : Option String} {cmd : String} {c : Command} {code : UInt8}
    {arg : Int32} (h : Asks portName cmd c) (hctl : ringCtl cmd portName = some (code, arg)) :
    code = c.code ∧ ∀ p, c.port = some p → arg = Int32.ofNat (portByte p).toNat := by
  unfold ringCtl at hctl
  cases h with
  | status | info | clear =>
    cases hport : ringCtlPort portName with
    | none => simp [hport] at hctl
    | some port =>
      simp [hport] at hctl
      exact ⟨hctl.1.symm, nofun⟩
  | ms hname | fs hname | fail hname | recover hname =>
    rename_i p
    have hne : Int32.ofNat (portByte p).toNat ≠ 0 := by cases p <;> simp [portByte]
    rw [hname, ringCtlPort_portWord] at hctl
    simp [hne] at hctl
    exact ⟨hctl.1.symm, fun q hq => by cases hq; exact hctl.2.symm⟩

/-- The four branches of the `switch` that look at the port. -/
theorem dispatch_of_takesPort {code : UInt8} (h : TakesPort code) :
    ∃ command, ∀ port, dispatch code port = overPort command port := by
  rcases h with rfl | rfl | rfl | rfl
  · exact ⟨.ms, fun _ => rfl⟩
  · exact ⟨.fs, fun _ => rfl⟩
  · exact ⟨.fail, fun _ => rfl⟩
  · exact ⟨.recover, fun _ => rfl⟩

theorem dispatch_ne_nullPort {code : UInt8} (h : ¬ TakesPort code) (port : Option PortId) :
    dispatch code port ≠ .nullPort := by
  simp only [TakesPort, not_or] at h
  obtain ⟨hms, hfs, hfail, hrecover⟩ := h
  simp only [dispatch, if_neg hms, if_neg hfs, if_neg hfail, if_neg hrecover]
  split
  · nofun
  · split
    · nofun
    · nofun

theorem dispatch_ne_nullPort_iff (code : UInt8) (port : Option PortId) :
    dispatch code port ≠ .nullPort ↔ ¬ TakesPort code ∨ port.isSome = true := by
  by_cases h : TakesPort code
  · obtain ⟨command, hcommand⟩ := dispatch_of_takesPort h
    cases port <;> simp [hcommand, overPort, h]
  · exact iff_of_true (dispatch_ne_nullPort h port) (.inl h)

/-! ## The port of a message -/

theorem ofNat_eq_ofNat_toNat_iff {n : Nat} (hn : n < 2 ^ 32) (b : UInt8) :
    Int32.ofNat n = Int32.ofNat b.toNat ↔ n = b.toNat := by
  have hb : b.toNat < 256 := b.toNat_lt
  constructor
  · intro h
    have h := congrArg (fun x : Int32 => x.toBitVec.toNat) h
    have hn : n % 4294967296 = n := Nat.mod_eq_of_lt hn
    have hb : b.toNat % 4294967296 = b.toNat := Nat.mod_eq_of_lt (by omega)
    simpa [hn, hb] using h
  · intro h
    rw [h]

/-- A parameter is a port's exactly in one way. -/
theorem ofNat_leNat_eq_iff {as : List UInt8} (hlen : as.length = 3) (a b : UInt8) :
    Int32.ofNat (leNat (a :: as)) = Int32.ofNat b.toNat ↔ a = b ∧ ∀ c ∈ as, c = 0 := by
  have hlt := leNat_lt (a :: as)
  rw [List.length_cons, hlen] at hlt
  rw [ofNat_eq_ofNat_toNat_iff hlt, leNat_cons_eq_toNat_iff]

theorem portOf_eq_some_iff (param : Int32) (p : PortId) :
    portOf param = some p ↔ param = Int32.ofNat (portByte p).toNat := by
  have hne : ringIoPort0 ≠ ringIoPort1 := by simp [ringIoPort0, ringIoPort1]
  simp only [portOf]
  cases p with
  | port0 =>
    change _ ↔ param = ringIoPort0
    by_cases h₁ : param = ringIoPort1
    · simp [h₁, hne.symm]
    · simp [h₁]
  | port1 =>
    change _ ↔ param = ringIoPort1
    by_cases h₁ : param = ringIoPort1
    · simp [h₁]
    · simp [h₁]

theorem portOf_ofNat_leNat {as : List UInt8} (hlen : as.length = 3) (a : UInt8) (p : PortId) :
    portOf (Int32.ofNat (leNat (a :: as))) = some p ↔ a = portByte p ∧ ∀ c ∈ as, c = 0 :=
  (portOf_eq_some_iff _ p).trans (ofNat_leNat_eq_iff hlen a (portByte p))

/-- A message names a port. -/
theorem isSome_portOf_iff {as : List UInt8} (hlen : as.length = 3) (a : UInt8) :
    (portOf (Int32.ofNat (leNat (a :: as)))).isSome = true ↔
      (a = 0xF0 ∨ a = 0xF1) ∧ ∀ c ∈ as, c = 0 := by
  have h₀ := portOf_ofNat_leNat hlen a .port0
  have h₁ := portOf_ofNat_leNat hlen a .port1
  rw [Option.isSome_iff_exists]
  constructor
  · rintro ⟨p, hp⟩
    cases p with
    | port0 => exact ⟨.inl (h₀.1 hp).1, (h₀.1 hp).2⟩
    | port1 => exact ⟨.inr (h₁.1 hp).1, (h₁.1 hp).2⟩
  · rintro ⟨ha | ha, hrest⟩
    · exact ⟨.port0, h₀.2 ⟨ha, hrest⟩⟩
    · exact ⟨.port1, h₁.2 ⟨ha, hrest⟩⟩

/-! ## The two ends -/

/-- What `req` is once the message is copied over the stack. -/
theorem received_eq (stack : RingIoReq) {arrived : List UInt8} (hlen : 5 ≤ arrived.length) :
    received stack arrived = dispatch (arrived.getD 0 0)
      (portOf (Int32.ofNat (leNat (arrived.getD 4 0 :: stack.bytes.drop 5)))) := by
  match arrived, hlen with
  | a :: b :: c :: d :: e :: rest, _ =>
    simp [received, RingIoReq.cmd, RingIoReq.param, RingIoReq.store, overwrite]

theorem length_ringIoSendMsg (stack : RingIoReq) (code : UInt8) (arg : Int32) :
    (ringIoSendMsg stack code arg).length = 8 :=
  ((stack.setCmd code).setParam arg).size

theorem cmd_ringIoSendMsg (stack : RingIoReq) (code : UInt8) (arg : Int32) :
    (ringIoSendMsg stack code arg).getD 0 0 = code := by
  simp [ringIoSendMsg, RingIoReq.setCmd, RingIoReq.setParam, RingIoReq.store, overwrite]

theorem portByte_ringIoSendMsg (stack : RingIoReq) (code : UInt8) (p : PortId) :
    (ringIoSendMsg stack code (Int32.ofNat (portByte p).toNat)).getD 4 0 = portByte p := by
  change (overwrite (stack.setCmd code).bytes 4 _).getD 4 0 = portByte p
  rw [getD_overwrite_self (by rw [(stack.setCmd code).size]; omega) (by simp)]
  cases p <;> rfl

theorem length_drop_five (stack : RingIoReq) : (stack.bytes.drop 5).length = 3 := by
  rw [List.length_drop, stack.size]

/-- A readable message of `ring-ctl` is executed as what it was asked for. -/
theorem received_sent {stack sender : RingIoReq} {portName : Option String} {cmd : String}
    {c : Command} {code : UInt8} {arg : Int32} (hasks : Asks portName cmd c)
    (hctl : ringCtl cmd portName = some (code, arg))
    (h : Readable stack (ringIoSendMsg sender code arg)) :
    received stack (ringIoSendMsg sender code arg) = .exec c := by
  obtain ⟨rfl, harg⟩ := ringCtl_of_asks hasks hctl
  rw [received_eq stack (by rw [length_ringIoSendMsg]; omega), cmd_ringIoSendMsg]
  apply Command.dispatch_code
  intro p hp
  rw [harg p hp, portByte_ringIoSendMsg, portOf_ofNat_leNat (length_drop_five stack)]
  refine ⟨rfl, ?_⟩
  cases h with
  | short h =>
    rw [length_ringIoSendMsg] at h
    omega
  | noPort h =>
    rw [cmd_ringIoSendMsg] at h
    exact absurd (Command.takesPort_code hp) h
  | port h => exact h.rest

/-- The ring is taken where the command takes it. -/
theorem executes_iff {stack : RingIoReq} {arrived : List UInt8} {c : Command} :
    Executes stack arrived c ↔ ∀ r now, rioClientRecv r now stack arrived = rioClient r now c := by
  cases c <;> exact Iff.rfl

theorem executes_of_received {stack : RingIoReq} {arrived : List UInt8} {c : Command}
    (h : received stack arrived = .exec c) : Executes stack arrived c := by
  rw [executes_iff]
  intro r now
  rw [rioClientRecv, h]

/-- Of the commands only a CLEAR can bring the node down. -/
theorem rioClient_ne_none {c : Command} (h : c ≠ .clear) (r : Ring UInt64) (now : UInt64) :
    rioClient r now c ≠ none := by
  cases c with
  | status => nofun
  | clear => exact absurd rfl h
  | ms p | fs p | fail p | recover p =>
    rw [rioClient, ne_eq, ringProcessRequest_eq_none_iff]
    simp [Ring.isImpossibleDupe]

/-- A node that has only just been set up survives that, too. -/
theorem rioClient_ringBlank (c : Command) :
    rioClient (ringBlank none false false .zero) 0 c ≠ none := by
  by_cases h : c = .clear
  · subst h
    rw [rioClient, ne_eq, ringProcessRequest_eq_none_iff]
    simp [Ring.isImpossibleDupe, ringBlank]
  · exact rioClient_ne_none h _ 0

/-- Over a null port there is no command that `rio_client` could be executing. -/
theorem received_ne_nullPort_iff_lawful {stack : RingIoReq} {arrived : List UInt8} :
    received stack arrived ≠ .nullPort ↔
      (∀ r now, rioClientRecv r now stack arrived = some r) ∨ ∃ c, Executes stack arrived c := by
  constructor
  · intro h
    cases hreceived : received stack arrived with
    | nothing =>
      refine .inl fun r now => ?_
      rw [rioClientRecv, hreceived]
    | exec c => exact .inr ⟨c, executes_of_received hreceived⟩
    | nullPort => exact absurd hreceived h
  · intro h hnull
    have hnone : ∀ r now, rioClientRecv r now stack arrived = none := by
      intro r now
      rw [rioClientRecv, hnull]
    rcases h with h | ⟨c, h⟩
    · cases (hnone (ringBlank none false false .zero) 0).symm.trans (h _ 0)
    · exact rioClient_ringBlank c ((executes_iff.mp h _ 0).symm.trans (hnone _ 0))

theorem received_of_short (stack : RingIoReq) {arrived : List UInt8} (h : arrived.length < 5) :
    received stack arrived = .nothing := by
  unfold received
  rw [dif_neg]
  rw [List.length_take]
  omega

/-- Of the messages long enough, the readable ones are not executed over a null port. -/
theorem received_ne_nullPort_iff (stack : RingIoReq) {arrived : List UInt8}
    (h : 5 ≤ arrived.length) :
    received stack arrived ≠ .nullPort ↔
      ¬ TakesPort (arrived.getD 0 0) ∨ NamesPort stack arrived := by
  rw [received_eq stack h, dispatch_ne_nullPort_iff, isSome_portOf_iff (length_drop_five stack)]
  constructor
  · rintro (hcode | ⟨hport, hrest⟩)
    · exact .inl hcode
    · exact .inr ⟨hport, hrest⟩
  · rintro (hcode | hport)
    · exact .inl hcode
    · exact .inr ⟨hport.port, hport.rest⟩

/-- The readable messages are those that are not executed over a null port. -/
theorem readable_iff (stack : RingIoReq) (arrived : List UInt8) :
    Readable stack arrived ↔ received stack arrived ≠ .nullPort := by
  by_cases hlen : arrived.length < 5
  · refine iff_of_true (.short hlen) ?_
    rw [received_of_short stack hlen]
    nofun
  · rw [received_ne_nullPort_iff stack (Nat.le_of_not_lt hlen)]
    constructor
    · intro h
      cases h with
      | short h => exact absurd h hlen
      | noPort h => exact .inl h
      | port h => exact .inr h
    · intro h
      rcases h with hcode | hport
      · exact .noPort hcode
      · exact .port hport

/-- A CLEAR is nothing but the message with its code. -/
theorem cmd_of_received_clear {stack : RingIoReq} {arrived : List UInt8}
    (h : received stack arrived = .exec .clear) : arrived.getD 0 0 = ringIoCmdClear := by
  by_cases hlen : arrived.length < 5
  · rw [received_of_short stack hlen] at h
    cases h
  · rw [received_eq stack (Nat.le_of_not_lt hlen)] at h
    generalize portOf (Int32.ofNat (leNat (arrived.getD 4 0 :: stack.bytes.drop 5))) = port at h
    unfold dispatch at h
    split at h
    · cases h
    · split at h
      · assumption
      · repeat' split at h
        all_goals cases port <;> cases h

/-- Every other readable message is survived, whatever the ring. -/
theorem rioClientRecv_ne_none {stack : RingIoReq} {arrived : List UInt8}
    (h : Readable stack arrived) (hclear : arrived.getD 0 0 ≠ ringIoCmdClear) (r : Ring UInt64)
    (now : UInt64) : rioClientRecv r now stack arrived ≠ none := by
  unfold rioClientRecv
  cases hreceived : received stack arrived with
  | nothing => nofun
  | exec c =>
    refine rioClient_ne_none ?_ r now
    rintro rfl
    exact hclear (cmd_of_received_clear hreceived)
  | nullPort => exact absurd hreceived ((readable_iff stack arrived).mp h)

/-- **The control socket is understood** when its requests are readable, and only then. -/
theorem understands_iff (stack : RingIoReq) (arrived : List UInt8) :
    Understands stack arrived ↔ Readable stack arrived := by
  constructor
  · intro h
    exact (readable_iff stack arrived).mpr (received_ne_nullPort_iff_lawful.mpr h.lawful)
  · intro h
    refine ⟨?_, received_ne_nullPort_iff_lawful.mp ((readable_iff stack arrived).mp h)⟩
    rintro cmd portName sender code arg c hasks hctl rfl
    exact executes_of_received (received_sent hasks hctl h)

/-- A stack that nobody has cleaned. -/
def usedStack : RingIoReq := ⟨List.replicate 8 0xFF, rfl⟩

/-- `ring-ctl ms port0`. -/
def msPort0 : List UInt8 := ringIoSendMsg usedStack ringIoCmdMs ringIoPort0

/-- Over the used stack it is a Manual Switch on no port. -/
theorem understands_counterexample :
    ¬ ∀ stack arrived, Understands stack arrived := by
  intro h
  have hlen : 5 ≤ msPort0.length := by
    rw [msPort0, length_ringIoSendMsg]
    omega
  have hne := received_ne_nullPort_iff_lawful.mpr (h usedStack msPort0).lawful
  rcases (received_ne_nullPort_iff usedStack hlen).1 hne with hcode | hport
  · rw [msPort0, cmd_ringIoSendMsg] at hcode
    exact hcode (.inl rfl)
  · have hzero := hport.rest 0xFF (.head _)
    cases hzero

end Erps.Sim
