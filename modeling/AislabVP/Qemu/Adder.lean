import AislabVP.Foundation.Bisimulation
import AislabVP.Vpipc.Wait

/-!
# The `adder` device of QEMU

`adder.c` is a device with six 32-bit registers.  `REG_INIT` and `REG_INT_STATUS` are in the
device; the data registers `REG_A`, `REG_B` and `REG_O` are on the SystemC side, behind
`vp_b_transfer`.  `adder_realize` registers them and starts `tcp_thread_func`, which creates the
module, calls `vp_wait` until a client is connected and then never again.  The guest may come
before the thread: `adder_realize` does not wait for it, and the callbacks find the
record as it was allocated.

The device is linked with `vpipc_pipe.c`, which is not in the repository: what it uses of it is
a parameter (`VpipcPipe`).  The messages are those of `VPIPC.md`.

`REG_ID` is answered from the field `id`, which nothing assigns: `CHIP_ID` is defined
and not used.  The requests of the data registers assign `status`, the other name of
`length`, so that `VP_OK` is their length.
-/

namespace AislabVP
namespace Qemu

open Foundation Vpipc

/-- `CHIP_ID`. -/
def chipId : BitVec 32 := 0xf001

/-- `CHIP_EN`, which is `BIT(1)`. -/
def chipEn : BitVec 32 := 2

/-- `INT_ENABLED`, which is `BIT(0)`. -/
def intEnabled : BitVec 32 := 1

/-- `INT_BUFFER_DEQ`, which is `BIT(1)`. -/
def intBufferDeq : BitVec 32 := 2

/-- `vpipc_pipe.h` as far as the device uses it.  A `vp_wait` that exits is `none`, and so is
a `vp_b_transfer` that does not return. -/
structure VpipcPipe (Vpm Event Peer : Type*) where
  /-- The record of a device that has just been allocated, all zeros. -/
  zeroVpm : Vpm
  createVpModule : Vpm
  vpWait : Vpm → Event → Option Vpm
  clientIsConnect : Vpm → Bool
  vpBTransfer : Vpm → Peer → VpTransferData → Peer × Option VpTransferData

/-- Where `tcp_thread_func` stands: before its first statement, in its first loop, or in the
second one, which only sleeps. -/
inductive AdderThread where
  | starting
  | waiting
  | connected
  deriving DecidableEq, Repr

/-- `struct AdderDevice`: the level of `irq`, the fields that the callbacks use, and where its
thread stands. -/
structure AdderDevice (Vpm : Type*) where
  vpm : Vpm
  thread : AdderThread
  irq : Bool
  id : BitVec 32
  init : BitVec 32
  status : BitVec 32
  deriving DecidableEq, Repr

/-- `adder_set_irq`. -/
def AdderDevice.adderSetIrq {Vpm : Type*} (dev : AdderDevice Vpm) (irq : BitVec 32) :
    AdderDevice Vpm :=
  { dev with status := irq, irq := true }

/-- `adder_clr_irq`. -/
def AdderDevice.adderClrIrq {Vpm : Type*} (dev : AdderDevice Vpm) : AdderDevice Vpm :=
  { dev with irq := false }

/-- `vpt_send` of `adder_read`. -/
def adderReadRequest (offset : BitVec 64) : VpTransferData where
  type := VpType.vpRead.code
  length := vpOk
  addr := offset
  data := 0

/-- `vpt_send` of `adder_write`. -/
def adderWriteRequest (offset value : BitVec 64) : VpTransferData where
  type := VpType.vpWrite.code
  length := vpOk
  addr := offset
  data := value

/-- The offsets that the callbacks tell apart. -/
inductive AdderReg where
  | id
  | init
  | a
  | b
  | o
  | intStatus
  deriving DecidableEq, Repr

/-- The `switch` on the offset. -/
def AdderReg.ofOffset (offset : BitVec 64) : Option AdderReg :=
  match offset.toNat with
  | 0x0 => some .id
  | 0x4 => some .init
  | 0x8 => some .a
  | 0xc => some .b
  | 0x10 => some .o
  | 0x14 => some .intStatus
  | _ => none

section Callbacks

variable {Vpm Event Peer : Type*} (pipe : VpipcPipe Vpm Event Peer)

/-- The device after `adder_realize`: the object is allocated with zeros, and the thread is
started. -/
def VpipcPipe.realized : AdderDevice Vpm where
  vpm := pipe.zeroVpm
  thread := .starting
  irq := false
  id := 0
  init := 0
  status := 0

/-- The `switch` of `adder_read`. -/
def adderReadReg (dev : AdderDevice Vpm) (peer : Peer) (offset : BitVec 64) :
    Option AdderReg → (AdderDevice Vpm × Peer) × Option (BitVec 64)
  | some .id => ((dev, peer), some (dev.id.setWidth 64))
  | some .init => ((dev, peer), some (dev.init.setWidth 64))
  | some .o | some .a | some .b =>
      let result := pipe.vpBTransfer dev.vpm peer (adderReadRequest offset)
      ((dev, result.1), result.2.map fun vptRecv => vptRecv.data)
  | some .intStatus => ((dev.adderClrIrq, peer), some (dev.status.setWidth 64))
  | none => ((dev, peer), some 0)

/-- `adder_read`.  `none` is a caller left in `recv`. -/
def adderRead (dev : AdderDevice Vpm) (peer : Peer) (offset : BitVec 64) :
    (AdderDevice Vpm × Peer) × Option (BitVec 64) :=
  -- "Device is disabled"
  if dev.init &&& chipEn = 0 then ((dev, peer), some 0)
  -- "client is not connect"
  else if pipe.clientIsConnect dev.vpm = false then ((dev, peer), some 0)
  else adderReadReg pipe dev peer offset (AdderReg.ofOffset offset)

/-- `adder_write`, which does not ask whether the device is enabled. -/
def adderWrite (dev : AdderDevice Vpm) (peer : Peer) (offset value : BitVec 64) :
    (AdderDevice Vpm × Peer) × Option Unit :=
  if pipe.clientIsConnect dev.vpm = false then ((dev, peer), some ())
  else
    match AdderReg.ofOffset offset with
    | some .init =>
        let dev := { dev with init := value.setWidth 32 }
        ((if value ≠ 0 then dev.adderSetIrq intEnabled else dev, peer), some ())
    | some .a | some .b =>
        match pipe.vpBTransfer dev.vpm peer (adderWriteRequest offset value) with
        | (peer, some _) => ((dev.adderSetIrq intBufferDeq, peer), some ())
        | (peer, none) => ((dev, peer), none)
    | some .id | some .o | some .intStatus | none => ((dev, peer), some ())

/-- The first statement of `tcp_thread_func`. -/
def AdderDevice.tcpStart (dev : AdderDevice Vpm) : Option (AdderDevice Vpm) :=
  match dev.thread with
  | .starting => some { dev with vpm := pipe.createVpModule, thread := .waiting }
  | .waiting | .connected => none

/-- The thread after a turn of its first loop, whose condition is at the end. -/
def VpipcPipe.threadAfter (vpm : Vpm) : AdderThread :=
  if pipe.clientIsConnect vpm then .connected else .waiting

/-- One turn of the first loop of `tcp_thread_func`. -/
def AdderDevice.tcpTurn (dev : AdderDevice Vpm) (event : Event) : Option (AdderDevice Vpm) :=
  match dev.thread with
  | .waiting =>
      (pipe.vpWait dev.vpm event).map fun vpm =>
        { dev with vpm := vpm, thread := pipe.threadAfter vpm }
  | .starting | .connected => none

/-! ## Runs -/

/-- What can happen to the device. -/
inductive AdderAction (Event : Type*) where
  | read (offset : BitVec 64)
  | write (offset value : BitVec 64)
  | tcpStart
  | tcpTurn (event : Event)

/-- What the guest sees: the value of a read, and the level of the interrupt line. -/
structure AdderOutput where
  value : Option (BitVec 64)
  irq : Bool
  deriving DecidableEq, Repr

/-- One action of the device with its peer; `none` when it does not come back. -/
def adderStep (both : AdderDevice Vpm × Peer) :
    AdderAction Event → Option ((AdderDevice Vpm × Peer) × AdderOutput)
  | .read offset =>
      match adderRead pipe both.1 both.2 offset with
      | (next, some value) => some (next, { value := some value, irq := next.1.irq })
      | (_, none) => none
  | .write offset value =>
      match adderWrite pipe both.1 both.2 offset value with
      | (next, some ()) => some (next, { value := none, irq := next.1.irq })
      | (_, none) => none
  | .tcpStart =>
      match both.1.tcpStart pipe with
      | some dev => some ((dev, both.2), { value := none, irq := dev.irq })
      | none => none
  | .tcpTurn event =>
      match both.1.tcpTurn pipe event with
      | some dev => some ((dev, both.2), { value := none, irq := dev.irq })
      | none => none

end Callbacks

end Qemu
end AislabVP
