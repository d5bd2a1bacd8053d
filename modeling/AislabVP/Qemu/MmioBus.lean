import AislabVP.Vpipc.Wait

/-!
# The `mmio_bus` device of QEMU

`mmio_bus_read` and `mmio_bus_write` turn an access of the region into one
blocking transfer.  `tcp_thread_func` serves the requests that arrive from the
SystemC side.  It keeps one `uint64_t value` and one response record for all
requests of all batches, so these are part of its state, and a branch that does
not assign a field of the record sends what is left over in it.

`cpu_physical_memory_read` and `cpu_physical_memory_write` belong to QEMU and
are parameters (`PhysicalMemory`).  The thread has no result for two kinds of
requests: a copy that is longer than the eight bytes of `value` runs past the
object, and an address in the device's own window leads back to `mmio_bus_read` or
`mmio_bus_write`, which wait for the mutex that the thread holds.
-/

namespace AislabVP
namespace Qemu

open Foundation Vpipc

/-- `MMIO_ADDR`. -/
def mmioAddr : BitVec 64 := 0x6000000

/-- `MMIO_SIZE`. -/
def mmioSize : Nat := 0x6000000

/-- The base of `AISLAB_DRAM` in the machine's memory map. -/
def dramBase : Nat := 0x80000000

/-- The byte is one of the device's window, where the memory map puts the region. -/
def InWindow (cell : Nat) : Prop :=
  mmioAddr.toNat ≤ cell ∧ cell < mmioAddr.toNat + mmioSize

/-! ## The region callbacks -/

/-- The request of `mmio_bus_read`. -/
def readRequest (offset : BitVec 64) (size : BitVec 32) : VpTransferData where
  type := VpType.vpRead.code
  length := size.setWidth 64
  addr := mmioAddr + offset
  data := 0

/-- The request of `mmio_bus_write`. -/
def writeRequest (offset value : BitVec 64) (size : BitVec 32) : VpTransferData where
  type := VpType.vpWrite.code
  length := size.setWidth 64
  addr := mmioAddr + offset
  data := value

section Callbacks

variable {Peer : Type*}

/-- `mmio_bus_read`.  `vpBTransfer` carries the request to the peer and its
response back; `none` is a caller left in `recv`.  A response of the wrong type
or status only prints a message. -/
def mmioBusRead (vpm : VpIpcModule)
    (vpBTransfer : Peer → VpTransferData → Peer × Option VpTransferData)
    (peer : Peer) (offset : BitVec 64) (size : BitVec 32) : Peer × Option (BitVec 64) :=
  if clientIsConnect vpm then
    let result := vpBTransfer peer (readRequest offset size)
    (result.1, result.2.map fun vptRecv => vptRecv.data)
  else (peer, some 0)

/-- `mmio_bus_write`. -/
def mmioBusWrite (vpm : VpIpcModule)
    (vpBTransfer : Peer → VpTransferData → Peer × Option VpTransferData)
    (peer : Peer) (offset value : BitVec 64) (size : BitVec 32) : Peer × Option Unit :=
  if clientIsConnect vpm then
    let result := vpBTransfer peer (writeRequest offset value size)
    (result.1, result.2.map fun _ => ())
  else (peer, some ())

end Callbacks

/-! ## The serving thread -/

/-- Guest physical memory as QEMU offers it.  A read may have effects, where the
address is a device. -/
structure PhysicalMemory (Guest : Type*) where
  cpuPhysicalMemoryRead : Guest → BitVec 64 → Nat → List Byte × Guest
  cpuPhysicalMemoryWrite : Guest → BitVec 64 → List Byte → Guest

/-- What `tcp_thread_func` works on: the guest, the level last given to
`qemu_set_irq`, and its two local objects. -/
structure TcpThread (Guest : Type*) where
  guest : Guest
  irq : BitVec 32
  value : BitVec 64
  vptResp : VpTransfer

/-- `sizeof(value)`. -/
def sizeofValue : Nat := 8

/-- Some byte of the range is in the device's window. -/
def meetsWindow (addr : BitVec 64) (length : BitVec 64) : Bool :=
  decide (0 < length.toNat ∧ addr.toNat < mmioAddr.toNat + mmioSize ∧
    mmioAddr.toNat < addr.toNat + length.toNat)

/-- `cpu_physical_memory_read` and `cpu_physical_memory_write` on `value` come back
from these ranges. -/
def copyReturns (addr length : BitVec 64) : Bool :=
  decide (length.toNat ≤ sizeofValue) && !meetsWindow addr length

variable {Guest : Type*}

/-- `mmio_bus_set_irq(dev, vpt[i].data.data)`: the parameter is an `int`. -/
def TcpThread.mmioBusSetIrq (thread : TcpThread Guest) (data : BitVec 64) :
    TcpThread Guest :=
  { thread with irq := data.setWidth 32 }

/-- The assignments to `vpt_resp` of a branch. -/
def TcpThread.answer (thread : TcpThread Guest) (vpt : VpTransfer)
    (data : VpTransferData) : TcpThread Guest :=
  { thread with vptResp := { sockFd := vpt.sockFd, data := data } }

/-- The `VP_WRITE` branch.  The copy reads the first bytes of `value`. -/
def TcpThread.serveWrite (mem : PhysicalMemory Guest) (thread : TcpThread Guest)
    (vpt : VpTransfer) : TcpThread Guest :=
  let value := vpt.data.data
  let guest := mem.cpuPhysicalMemoryWrite thread.guest vpt.data.addr
    ((leBytes sizeofValue value.toNat).take vpt.data.length.toNat)
  { thread with guest := guest, value := value }.answer vpt
    { thread.vptResp.data with
      type := VpType.vpWriteResp.code
      length := vpOk
      addr := vpt.data.addr }

/-- The `VP_READ` branch.  The copy replaces the first bytes of `value`. -/
def TcpThread.serveRead (mem : PhysicalMemory Guest) (thread : TcpThread Guest)
    (vpt : VpTransfer) : TcpThread Guest :=
  let copied := mem.cpuPhysicalMemoryRead thread.guest vpt.data.addr vpt.data.length.toNat
  let value := BitVec.ofNat 64
    (leValue (overlay (leBytes sizeofValue thread.value.toNat) copied.1))
  { thread with guest := copied.2, value := value }.answer vpt
    { type := VpType.vpReadResp.code
      length := vpOk
      addr := vpt.data.addr
      data := value }

/-- The `VP_RAISE_IRQ` branch. -/
def TcpThread.serveRaiseIrq (thread : TcpThread Guest) (vpt : VpTransfer) :
    TcpThread Guest :=
  (thread.mmioBusSetIrq vpt.data.data).answer vpt
    { type := VpType.vpRaiseIrqResp.code, length := vpOk, addr := 0, data := 0 }

/-- The `default` branch. -/
def TcpThread.serveDefault (thread : TcpThread Guest) (vpt : VpTransfer) :
    TcpThread Guest :=
  thread.answer vpt { thread.vptResp.data with type := VpType.vpError.code, length := vpFail }

/-- One turn of the `for` loop of `tcp_thread_func`: the state after it, whose
`vptResp` is what `vp_nb_response` sends. -/
def TcpThread.serve (mem : PhysicalMemory Guest) (thread : TcpThread Guest)
    (vpt : VpTransfer) : Option (TcpThread Guest) :=
  match VpType.ofCode vpt.data.type with
  -- The copy to or from `value` has to stay inside it and to come back.
  | some .vpWrite =>
      if copyReturns vpt.data.addr vpt.data.length then some (thread.serveWrite mem vpt)
      else none
  | some .vpRead =>
      if copyReturns vpt.data.addr vpt.data.length then some (thread.serveRead mem vpt)
      else none
  | some .vpRaiseIrq => some (thread.serveRaiseIrq vpt)
  | _ => some (thread.serveDefault vpt)

/-- The array `vpt[3]` as one `vp_wait` fills it. -/
structure Batch where
  vpt : List VpTransfer
  fits : vpt.length ≤ 3

/-- The `for` loop over one batch: the state after it and the responses sent. -/
def TcpThread.serveBatch (mem : PhysicalMemory Guest) :
    TcpThread Guest → List VpTransfer → Option (TcpThread Guest × List VpTransfer)
  | thread, [] => some (thread, [])
  | thread, vpt :: rest =>
      match thread.serve mem vpt with
      | none => none
      | some next =>
          match next.serveBatch mem rest with
          | none => none
          | some (final, sent) => some (final, next.vptResp :: sent)

/-- The `while` loop on the batches that successive `vp_wait` calls return. -/
def TcpThread.serveBatches (mem : PhysicalMemory Guest) :
    TcpThread Guest → List Batch → Option (TcpThread Guest × List VpTransfer)
  | thread, [] => some (thread, [])
  | thread, batch :: rest =>
      match thread.serveBatch mem batch.vpt with
      | none => none
      | some (next, sent) =>
          match next.serveBatches mem rest with
          | none => none
          | some (final, others) => some (final, sent ++ others)

/-! ## Guest RAM -/

/-- A range of RAM, none of which is in the window, is copied. -/
theorem copyReturns_of_ram {isRam : Nat → Prop} (hwindow : ∀ cell, isRam cell → ¬InWindow cell)
    {addr length : BitVec 64} (hlength : length.toNat ≤ 8)
    (hrange : ∀ index < length.toNat, isRam (addr.toNat + index)) :
    copyReturns addr length = true := by
  have hmeets : meetsWindow addr length = false := by
    apply decide_eq_false
    rintro ⟨hpositive, hbelow, habove⟩
    have hsize : 0 < mmioSize := by decide
    -- The first byte of the range that is not below the window lies in it.
    have hcell := hwindow _
      (hrange (max addr.toNat mmioAddr.toNat - addr.toNat) (by omega))
    exact hcell ⟨by omega, by omega⟩
  rw [copyReturns, hmeets, decide_eq_true (show length.toNat ≤ sizeofValue from hlength)]
  rfl

/-- `cpu_physical_memory_read` and `cpu_physical_memory_write` copy the given
bytes when the range is RAM, and nothing else happens to RAM. -/
structure RamCopies (mem : PhysicalMemory Guest) (isRam : Nat → Prop)
    (ram : Guest → ByteStore) : Prop where
  read : ∀ guest (addr : BitVec 64) count, (∀ index < count, isRam (addr.toNat + index)) →
    (mem.cpuPhysicalMemoryRead guest addr count).1 = readBytes (ram guest) addr.toNat count ∧
      ram (mem.cpuPhysicalMemoryRead guest addr count).2 = ram guest
  write : ∀ guest (addr : BitVec 64) (bytes : List Byte),
    (∀ index < bytes.length, isRam (addr.toNat + index)) →
    ram (mem.cpuPhysicalMemoryWrite guest addr bytes) =
      writeBytes (ram guest) addr.toNat bytes

end Qemu
end AislabVP
