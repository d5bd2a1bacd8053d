import AislabVP.SystemC.Memory
import AislabVP.Vpipc.Message

/-!
# The DMA socket

`QEMU_CPU::b_transport`, compiled with `-DDMA`: a transaction on `socket_slave`
becomes one blocking transfer to QEMU.  The checks are those of the target
with another address range: the quotient of the byte address by four has to lie
between the bounds of the *MMIO window*.

After a good answer to a read the source copies from `vpt_send`, the message it
sent, and after any answer at all it sets `TLM_OK_RESPONSE`.
-/

namespace AislabVP
namespace SystemC

open Foundation Vpipc

/-- `MMIO_BUS_ADDR`. -/
def mmioBusAddr : BitVec 64 := 0x6000000

/-- `MMIO_BUS_SIZE`. -/
def mmioBusSize : BitVec 64 := 0x6000000

/-- `vpt_send` of the read branch. -/
def slaveReadRequest (trans : TlmPayload) : VpTransferData where
  type := VpType.vpRead.code
  length := trans.dataLength.setWidth 64
  addr := trans.address / 4
  data := 0

/-- `vpt_send` of the write branch.  `stack` is what the uninitialised field
`data` holds above the copied bytes. -/
def slaveWriteRequest (stack : BitVec 64) (trans : TlmPayload) : VpTransferData where
  type := VpType.vpWrite.code
  length := trans.dataLength.setWidth 64
  addr := trans.address / 4
  data := BitVec.ofNat 64 (leValue
    (overlay (leBytes 8 stack.toNat) (trans.data.take trans.dataLength.toNat)))

/-- The address check. -/
def slaveAddressError (trans : TlmPayload) : Bool :=
  let adr := trans.address / 4
  decide (adr < mmioBusAddr ∨ adr > mmioBusAddr + mmioBusSize)

/-- `QEMU_CPU::b_transport`.  `vpBTransfer` carries the request to QEMU and the
response back; `none` is an initiator left in `recv`. -/
def qemuCpuBTransport {Peer : Type*}
    (vpBTransfer : Peer → VpTransferData → Peer × Option VpTransferData)
    (stack : BitVec 64) (peer : Peer) (trans : TlmPayload) : Peer × Option TlmPayload :=
  let len := trans.dataLength.toNat
  if slaveAddressError trans then
    (peer, some { trans with responseStatus := .addressError })
  else if trans.byteEnable.isSome then
    (peer, some { trans with responseStatus := .byteEnableError })
  else if len > 4 ∨ trans.streamingWidth.toNat < len then
    (peer, some { trans with responseStatus := .burstError })
  else
    match trans.command with
    | .read =>
        let vptSend := slaveReadRequest trans
        match vpBTransfer peer vptSend with
        | (next, none) => (next, none)
        | (next, some vptRecv) =>
            if vptRecv.type = VpType.vpReadResp.code ∧ vptRecv.status = vpOk then
              -- The source object of this copy is the request.
              let data := overlay trans.data ((leBytes 8 vptSend.data.toNat).take len)
              (next, some { trans with data := data, responseStatus := .ok })
            -- A bad answer is printed, and the transaction still ends well.
            else (next, some { trans with responseStatus := .ok })
    | .write =>
        match vpBTransfer peer (slaveWriteRequest stack trans) with
        | (next, none) => (next, none)
        | (next, some _) => (next, some { trans with responseStatus := .ok })
    | .ignore => (peer, some { trans with responseStatus := .ok })

/-- The request that a transaction sends, when it passes the checks. -/
def slaveRequest (stack : BitVec 64) (trans : TlmPayload) : Option VpTransferData :=
  if slaveAddressError trans ∨ trans.byteEnable.isSome ∨ trans.dataLength.toNat > 4 ∨
      trans.streamingWidth.toNat < trans.dataLength.toNat then none
  else
    match trans.command with
    | .read => some (slaveReadRequest trans)
    | .write => some (slaveWriteRequest stack trans)
    | .ignore => none

/-- `b_transport` makes one blocking transfer of that request, and otherwise none:
the peer is as the transfer leaves it. -/
theorem qemuCpuBTransport_peer {Peer : Type*}
    (vpBTransfer : Peer → VpTransferData → Peer × Option VpTransferData)
    (stack : BitVec 64) (peer : Peer) (trans : TlmPayload) :
    (qemuCpuBTransport vpBTransfer stack peer trans).1 =
      match slaveRequest stack trans with
      | none => peer
      | some request => (vpBTransfer peer request).1 := by
  unfold qemuCpuBTransport slaveRequest
  by_cases haddress : slaveAddressError trans = true
  · simp [haddress]
  · by_cases hbyte : trans.byteEnable.isSome = true
    · simp [haddress, hbyte]
    · by_cases hburst : trans.dataLength.toNat > 4 ∨
          trans.streamingWidth.toNat < trans.dataLength.toNat
      · simp [haddress, hbyte, hburst]
      · simp only [haddress, hbyte, hburst, if_false, or_self, Bool.false_eq_true]
        cases trans.command with
        | read =>
            cases hresult : vpBTransfer peer (slaveReadRequest trans) with
            | mk next answer =>
                cases answer with
                | none => simp [hresult]
                | some vptRecv =>
                    simp only [hresult]
                    split <;> rfl
        | write =>
            cases hresult : vpBTransfer peer (slaveWriteRequest stack trans) with
            | mk next answer => cases answer <;> simp [hresult]
        | ignore => rfl

end SystemC
end AislabVP
