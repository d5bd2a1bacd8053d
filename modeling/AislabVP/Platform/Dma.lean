import AislabVP.Qemu.Service
import AislabVP.SystemC.SocketSlave

/-!
# DMA through the slave socket

The blocking transfer of `QEMU_CPU::b_transport` with `tcp_thread_func` on the
other side, and what a run of transactions on guest RAM has to do: a write stores
the initiator's bytes, a read fetches the guest's, and `TLM_OK_RESPONSE` needs a
good answer of QEMU.

DRAM begins at `0x80000000`, the slave socket accepts what lies in the MMIO window
after a division by four, so no RAM transaction is ever carried out.  The run
does what it should exactly when there is nothing to move: every buffer
already holds the guest bytes it addresses (`transfersRam_iff_nothing_to_move`).
-/

namespace AislabVP
namespace Platform

open Foundation Vpipc Qemu SystemC

section Dma

variable {Guest : Type*} (mem : PhysicalMemory Guest) (server : VpIpcModule) (fd : Int)

/-- `vp_b_transfer` with `tcp_thread_func` on the other side: its `vp_wait` takes
the request from the descriptor `fd`, the loop serves it, and `recv` stores the
image of the response.  `none` is a request without a defined response. -/
def vpBTransferToQemu (thread : TcpThread Guest) (request : VpTransferData) :
    TcpThread Guest × Option VpTransferData :=
  let event := EpollEvent.input fd (.piece (Piece.whole request))
  match thread.serveBatch mem (vpWait .qemu server (some [event])).vpt with
  | some (next, resp :: _) => (next, some (VpTransferData.ofImage resp.data.image))
  | _ => (thread, none)

/-- QEMU answers the request of a transaction with the matching response type and
`VP_OK`. -/
def AnsweredOk (stack : BitVec 64) (thread : TcpThread Guest) (trans : TlmPayload) : Prop :=
  ∃ vptRecv, vptRecv.status = vpOk ∧
    match trans.command with
    | .read =>
        (vpBTransferToQemu mem server fd thread (slaveReadRequest trans)).2 = some vptRecv ∧
          vptRecv.type = VpType.vpReadResp.code
    | .write =>
        (vpBTransferToQemu mem server fd thread (slaveWriteRequest stack trans)).2 =
            some vptRecv ∧
          vptRecv.type = VpType.vpWriteResp.code
    | .ignore => False

/-- A transaction on guest RAM as the initiators make it. -/
structure RamTransaction (isRam : Nat → Prop) (trans : TlmPayload) : Prop where
  command : trans.command = .read ∨ trans.command = .write
  range : ∀ index < trans.dataLength.toNat, isRam (trans.address.toNat + index)
  length : 1 ≤ trans.dataLength.toNat ∧ trans.dataLength.toNat ≤ 4
  width : trans.dataLength.toNat ≤ trans.streamingWidth.toNat
  byteEnable : trans.byteEnable = none
  buffer : trans.dataLength.toNat ≤ trans.data.length

/-- The bytes of the buffer that take part. -/
def bufferBytes (trans : TlmPayload) : List Byte :=
  trans.data.take trans.dataLength.toNat

/-- The bytes of guest RAM that a transaction addresses. -/
def guestBytes (store : ByteStore) (trans : TlmPayload) : List Byte :=
  readBytes store trans.address.toNat trans.dataLength.toNat

/-- A run of transactions moves bytes between the buffers and guest RAM.  The words
in `stack` are what the stack holds below each call. -/
def TransfersRam (ram : Guest → ByteStore) (stack : Nat → BitVec 64) :
    TcpThread Guest → List TlmPayload → Prop
  | _, [] => True
  | thread, transaction :: rest =>
      ∃ next after,
        qemuCpuBTransport (vpBTransferToQemu mem server fd) (stack rest.length) thread
            transaction = (next, some after) ∧
          (transaction.command = .write →
            ram next.guest = writeBytes (ram thread.guest) transaction.address.toNat
              (bufferBytes transaction)) ∧
          (transaction.command = .read →
            bufferBytes after = guestBytes (ram thread.guest) transaction) ∧
          (after.responseStatus = .ok →
            AnsweredOk mem server fd (stack rest.length) thread transaction) ∧
          TransfersRam ram stack next rest

end Dma

/-! ## Transactions on DRAM -/

/-- A quarter of a DRAM address is still above the window. -/
theorem slaveAddressError_of_dram {trans : TlmPayload}
    (haddress : dramBase ≤ trans.address.toNat) : slaveAddressError trans = true := by
  apply decide_eq_true
  right
  show mmioBusAddr + mmioBusSize < trans.address / 4
  rw [BitVec.lt_def, BitVec.toNat_udiv]
  show 0xC000000 < trans.address.toNat / 4
  unfold dramBase at haddress
  omega

/-- A transaction on DRAM is refused before anything is sent. -/
theorem qemuCpuBTransport_of_dram {Peer : Type*}
    (vpBTransfer : Peer → VpTransferData → Peer × Option VpTransferData)
    (stack : BitVec 64) (peer : Peer) (trans : TlmPayload)
    (haddress : dramBase ≤ trans.address.toNat) :
    qemuCpuBTransport vpBTransfer stack peer trans =
      (peer, some { trans with responseStatus := .addressError }) := by
  rw [qemuCpuBTransport]
  simp only [slaveAddressError_of_dram haddress, if_true]

section Refused

variable {Guest : Type*} {mem : PhysicalMemory Guest} {server : VpIpcModule} {fd : Int}
variable {ram : Guest → ByteStore} {isRam : Nat → Prop}

theorem RamTransaction.dram (hdram : ∀ cell, isRam cell → dramBase ≤ cell)
    {trans : TlmPayload} (htrans : RamTransaction isRam trans) :
    dramBase ≤ trans.address.toNat :=
  hdram _ (htrans.range 0 htrans.length.1)

/-- Every RAM transaction is refused, so the run moves bytes exactly when no
transaction of it has any to move. -/
theorem transfersRam_iff_nothing_to_move (hdram : ∀ cell, isRam cell → dramBase ≤ cell)
    (stack : Nat → BitVec 64) (thread : TcpThread Guest) (transactions : List TlmPayload)
    (htransactions : ∀ trans ∈ transactions, RamTransaction isRam trans) :
    TransfersRam mem server fd ram stack thread transactions ↔
      ∀ trans ∈ transactions, bufferBytes trans = guestBytes (ram thread.guest) trans := by
  induction transactions with
  | nil => simp [TransfersRam]
  | cons trans rest ih =>
      rw [List.forall_mem_cons] at htransactions ⊢
      rcases htransactions with ⟨htrans, hrest⟩
      have hrefused := qemuCpuBTransport_of_dram (vpBTransferToQemu mem server fd)
        (stack rest.length) thread trans (htrans.dram hdram)
      have hlength : (bufferBytes trans).length = trans.dataLength.toNat := by
        rw [bufferBytes, List.length_take]
        exact Nat.min_eq_left htrans.buffer
      have hwrite := writeBytes_eq_self_iff (ram thread.guest) trans.address.toNat
        (bufferBytes trans)
      rw [hlength] at hwrite
      rw [← ih hrest]
      constructor
      · rintro ⟨next, after, hresult, hwritten, hread, -, hruns⟩
        rw [hrefused] at hresult
        obtain ⟨rfl, hafter⟩ := Prod.mk.inj hresult
        obtain rfl := Option.some.inj hafter
        -- Neither guest nor buffer has changed.
        refine ⟨?_, hruns⟩
        rcases htrans.command with hcommand | hcommand
        · exact hread hcommand
        · exact hwrite.mp (hwritten hcommand)
      · rintro ⟨hbytes, hruns⟩
        refine ⟨thread, _, hrefused, fun _ => hwrite.mpr hbytes, fun _ => hbytes, ?_, hruns⟩
        rintro ⟨⟩

end Refused

/-! ## On a guest of plain RAM -/

/-- QEMU's record while SystemC is connected on descriptor 5. -/
def dmaServer : VpIpcModule :=
  { type := .server, epollFd := 3, sockFd := 5, serverFd := 4 }

/-- One byte at the start of DRAM. -/
def dramByte (command : TlmCommand) (byte : Byte) : TlmPayload :=
  { command := command, address := 0x80000000, data := [byte], dataLength := 1,
    byteEnable := none, streamingWidth := 4, dmiAllowed := false,
    responseStatus := .incomplete }

theorem dramByte_ramTransaction {command : TlmCommand}
    (hcommand : command = .read ∨ command = .write) (byte : Byte) :
    RamTransaction (dramBase ≤ ·) (dramByte command byte) where
  command := hcommand
  range := fun _ _ => Nat.le_add_right _ _
  length := ⟨le_refl 1, show 1 ≤ 4 by decide⟩
  width := show 1 ≤ 4 by decide
  byteEnable := rfl
  buffer := le_refl 1

/-- Reading a zero into a zero. -/
theorem dram_zero_transfersRam :
    TransfersRam plainMemory dmaServer 5 id (fun _ => 0) idleThread [dramByte .read 0] := by
  have hram : ∀ trans ∈ [dramByte .read 0], RamTransaction (dramBase ≤ ·) trans := by
    rw [List.forall_mem_singleton]
    exact dramByte_ramTransaction (Or.inl rfl) 0
  refine (transfersRam_iff_nothing_to_move (fun _ hcell => hcell) (fun _ => 0) idleThread _
    hram).mpr ?_
  rw [List.forall_mem_singleton]
  decide

/-- A byte written to the start of DRAM ends in an address error and is not in
guest memory. -/
theorem dram_write_is_refused :
    (qemuCpuBTransport (vpBTransferToQemu plainMemory dmaServer 5) 0 idleThread
        (dramByte .write 0x5A)).2.map TlmPayload.responseStatus = some .addressError ∧
      ¬TransfersRam plainMemory dmaServer 5 id (fun _ => 0) idleThread
        [dramByte .write 0x5A] := by
  have hrefused := qemuCpuBTransport_of_dram (vpBTransferToQemu plainMemory dmaServer 5) 0
    idleThread (dramByte .write 0x5A) (by decide)
  refine ⟨by rw [hrefused]; rfl, ?_⟩
  rintro ⟨next, after, hresult, hwritten, -⟩
  obtain ⟨rfl, -⟩ := Prod.mk.inj (hrefused.symm.trans hresult)
  have hbyte := congrFun (hwritten rfl) dramBase
  exact absurd hbyte (by decide)

end Platform
end AislabVP
