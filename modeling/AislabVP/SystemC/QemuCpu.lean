import AislabVP.SystemC.Memory
import AislabVP.Vpipc.Wait

/-!
# The SystemC dispatcher

`QEMU_CPU::thread_process` takes one message at a time from `vp_wait`, turns
`VP_READ` and `VP_WRITE` into TLM transactions on `socket_master`, and answers
with `vp_nb_response`.  The response record is a member variable: a branch
that does not assign one of its fields sends the value of an earlier answer.

`SC_REPORT_ERROR` throws.  Nothing in `thread_process` catches it, so a
transaction that ends in error sends no answer at all and ends the thread.
-/

namespace AislabVP
namespace SystemC

open Foundation Vpipc

/-- What `SC_REPORT_ERROR` throws. -/
structure ScReport where
  msgType : String
  msg : String
  deriving DecidableEq, Repr

/-- The report of `tlm_read` and `tlm_write`. -/
def responseErrorReport : ScReport where
  msgType := "TLM-2"
  msg := "Response error from b_transport"

/-- The transaction that `tlm_read` and `tlm_write` set up.  `set_data_length`
takes an `unsigned int`. -/
def setupTransaction (command : TlmCommand) (transData : VpTransferData)
    (data : List Byte) : TlmPayload where
  command := command
  address := transData.addr
  data := data
  dataLength := transData.length.setWidth 32
  byteEnable := none
  streamingWidth := 4
  dmiAllowed := false
  responseStatus := .incomplete

/-- The transaction of `tlm_read`, on `uint32_t data = 0`. -/
def readTransaction (transData : VpTransferData) : TlmPayload :=
  setupTransaction .read transData (leBytes 4 0)

/-- The transaction of `tlm_write`, on `uint32_t data = (uint32_t)trans_data.data`. -/
def writeTransaction (transData : VpTransferData) : TlmPayload :=
  setupTransaction .write transData (leBytes 4 (transData.data.setWidth 32).toNat)

/-- `QEMU_CPU::tlm_read`. -/
def tlmRead (memory : Memory) (transData : VpTransferData) :
    Memory × Except ScReport (BitVec 64) :=
  let result := memory.bTransport (readTransaction transData)
  if result.2.isResponseError then (result.1, .error responseErrorReport)
  else (result.1, .ok (BitVec.ofNat 64 (leValue result.2.data)))

/-- `QEMU_CPU::tlm_write`. -/
def tlmWrite (memory : Memory) (transData : VpTransferData) :
    Memory × Except ScReport Unit :=
  let result := memory.bTransport (writeTransaction transData)
  if result.2.isResponseError then (result.1, .error responseErrorReport)
  else (result.1, .ok ())

/-- `QEMU_CPU` with the target bound to its master socket: the target and the
member `vpt_resp`. -/
structure QemuCpu where
  memory : Memory
  vptResp : VpTransfer

/-- One turn of the loop of `thread_process` on a delivered message: the new
state, and either the response passed to `vp_nb_response` or the report that
leaves the thread. -/
def QemuCpu.dispatch (cpu : QemuCpu) (vpt : VpTransfer) :
    QemuCpu × Except ScReport VpTransfer :=
  match VpType.ofCode vpt.data.type with
  | some .vpWrite =>
      match tlmWrite cpu.memory vpt.data with
      -- The exception leaves before the response is filled in.
      | (memory, .error report) =>
          ({ memory := memory, vptResp := { cpu.vptResp with sockFd := vpt.sockFd } },
            .error report)
      | (memory, .ok _) =>
          -- `data` is not assigned.
          let resp : VpTransfer :=
            { sockFd := vpt.sockFd
              data := { cpu.vptResp.data with
                type := VpType.vpWriteResp.code
                length := vpOk
                addr := vpt.data.addr } }
          ({ memory := memory, vptResp := resp }, .ok resp)
  | some .vpRead =>
      -- Type, status and address are assigned before the transaction runs.
      let resp : VpTransfer :=
        { sockFd := vpt.sockFd
          data := { cpu.vptResp.data with
            type := VpType.vpReadResp.code
            length := vpOk
            addr := vpt.data.addr } }
      match tlmRead cpu.memory vpt.data with
      | (memory, .error report) =>
          ({ memory := memory, vptResp := resp }, .error report)
      | (memory, .ok data) =>
          let resp : VpTransfer := { resp with data := { resp.data with data := data } }
          ({ memory := memory, vptResp := resp }, .ok resp)
  | _ =>
      let resp : VpTransfer :=
        { sockFd := vpt.sockFd
          data := { cpu.vptResp.data with
            type := VpType.vpError.code
            length := vpFail } }
      ({ cpu with vptResp := resp }, .ok resp)

/-! ## The two transactions -/

theorem accepts_setupTransaction_iff (command : TlmCommand) (transData : VpTransferData)
    (data : List Byte) :
    Accepts (setupTransaction command transData data) ↔
      transData.addr.toNat / 4 < memorySize ∧ (transData.length.setWidth 32).toNat ≤ 4 := by
  constructor
  · rintro ⟨hadr, -, hlen, -⟩
    exact ⟨hadr, hlen⟩
  · rintro ⟨hadr, hlen⟩
    exact ⟨hadr, rfl, hlen, hlen⟩

theorem tlmRead_of_accepts (memory : Memory) {transData : VpTransferData}
    (h : Accepts (readTransaction transData)) :
    tlmRead memory transData =
      (memory, .ok (BitVec.ofNat 64 (leValue
        (readBytes memory.mem (4 * (transData.addr.toNat / 4))
          (transData.length.setWidth 32).toNat)))) := by
  have hlen : (transData.length.setWidth 32).toNat ≤ 4 :=
    ((accepts_setupTransaction_iff _ _ _).mp h).2
  have hbuffer : leBytes 4 0 = List.replicate 4 0 := by decide
  rw [tlmRead, bTransport_read memory h rfl]
  simp only [TlmPayload.isResponseError, readTransaction, setupTransaction, ne_eq,
    not_true_eq_false, decide_false, Bool.false_eq_true, if_false, overlay, hbuffer,
    List.drop_replicate, leValue_append_zeros]

theorem tlmWrite_of_accepts (memory : Memory) {transData : VpTransferData}
    (h : Accepts (writeTransaction transData)) :
    tlmWrite memory transData =
      ({ mem := writeBytes memory.mem (4 * (transData.addr.toNat / 4))
          (leBytes (transData.length.setWidth 32).toNat transData.data.toNat) },
        .ok ()) := by
  have hlen : (transData.length.setWidth 32).toNat ≤ 4 :=
    ((accepts_setupTransaction_iff _ _ _).mp h).2
  have hdata : (leBytes 4 (transData.data.setWidth 32).toNat).take
      (transData.length.setWidth 32).toNat =
        leBytes (transData.length.setWidth 32).toNat transData.data.toNat := by
    rw [take_leBytes _ 4 _ hlen, BitVec.toNat_setWidth]
    exact leBytes_mod _ 4 _ hlen
  rw [tlmWrite, bTransport_write memory h rfl]
  simp only [TlmPayload.isResponseError, writeTransaction, setupTransaction, ne_eq,
    not_true_eq_false, decide_false, Bool.false_eq_true, if_false, hdata]

theorem tlmRead_of_not_accepts (memory : Memory) {transData : VpTransferData}
    (h : ¬Accepts (readTransaction transData)) :
    tlmRead memory transData = (memory, .error responseErrorReport) := by
  obtain ⟨hmemory, hstatus, -⟩ := bTransport_of_not_accepts memory h
  simp [tlmRead, TlmPayload.isResponseError, hmemory, hstatus]

theorem tlmWrite_of_not_accepts (memory : Memory) {transData : VpTransferData}
    (h : ¬Accepts (writeTransaction transData)) :
    tlmWrite memory transData = (memory, .error responseErrorReport) := by
  obtain ⟨hmemory, hstatus, -⟩ := bTransport_of_not_accepts memory h
  simp [tlmWrite, TlmPayload.isResponseError, hmemory, hstatus]

end SystemC
end AislabVP
