import AislabVP.Foundation.Bytes

/-!
# The TLM-2 target

The generic payload as the two modules of the demo platform use it, and
`Memory::b_transport` of `target.h`.  `int mem[SIZE]` is only ever touched by
`memcpy`, so it is kept as the bytes of the array; `&mem[adr]` is byte
`4 * adr`.  The target divides the byte address by four to get `adr` and drops
the remainder, which is where sub-word accesses lose their position.
-/

namespace AislabVP
namespace SystemC

open Foundation

/-- `tlm_command`. -/
inductive TlmCommand where
  | read
  | write
  | ignore
  deriving DecidableEq, Repr

/-- `tlm_response_status`. -/
inductive TlmResponseStatus where
  | ok
  | incomplete
  | genericError
  | addressError
  | commandError
  | burstError
  | byteEnableError
  deriving DecidableEq, Repr

/-- `tlm_generic_payload`.  `data` is the object that the data pointer points
to, `byteEnable` the byte enable array unless its pointer is null. -/
structure TlmPayload where
  command : TlmCommand
  address : BitVec 64
  data : List Byte
  dataLength : BitVec 32
  byteEnable : Option (List Byte)
  streamingWidth : BitVec 32
  dmiAllowed : Bool
  responseStatus : TlmResponseStatus
  deriving DecidableEq, Repr

/-- `is_response_error`: every status but `TLM_OK_RESPONSE`, the one that a
transaction starts with included. -/
def TlmPayload.isResponseError (trans : TlmPayload) : Bool :=
  decide (trans.responseStatus ≠ .ok)

/-- `Memory`, with the bytes of `int mem[SIZE]`. -/
structure Memory where
  mem : ByteStore

/-- `Memory::SIZE`, in words. -/
def memorySize : Nat := 0x6000000

/-- `Memory::b_transport`. -/
def Memory.bTransport (memory : Memory) (trans : TlmPayload) : Memory × TlmPayload :=
  -- The number of a word; the remainder is not used again.
  let adr := trans.address.toNat / 4
  let len := trans.dataLength.toNat
  if adr ≥ memorySize then
    (memory, { trans with responseStatus := .addressError })
  else if trans.byteEnable.isSome then
    (memory, { trans with responseStatus := .byteEnableError })
  else if len > 4 ∨ trans.streamingWidth.toNat < len then
    (memory, { trans with responseStatus := .burstError })
  else
    match trans.command with
    | .read =>
        (memory, { trans with
          data := overlay trans.data (readBytes memory.mem (4 * adr) len)
          dmiAllowed := true
          responseStatus := .ok })
    | .write =>
        ({ mem := writeBytes memory.mem (4 * adr) (trans.data.take len) },
          { trans with dmiAllowed := true, responseStatus := .ok })
    | .ignore => (memory, { trans with dmiAllowed := true, responseStatus := .ok })

/-- The checks of the target that a transaction has to pass. -/
def Accepts (trans : TlmPayload) : Prop :=
  trans.address.toNat / 4 < memorySize ∧ trans.byteEnable = none ∧
    trans.dataLength.toNat ≤ 4 ∧
    trans.dataLength.toNat ≤ trans.streamingWidth.toNat

instance (trans : TlmPayload) : Decidable (Accepts trans) := by
  unfold Accepts
  infer_instance

/-- A transaction that fails a check is answered with an error and touches
neither memory nor buffer. -/
theorem bTransport_of_not_accepts (memory : Memory) {trans : TlmPayload}
    (h : ¬Accepts trans) :
    (memory.bTransport trans).1 = memory ∧
      (memory.bTransport trans).2.responseStatus ≠ .ok ∧
      (memory.bTransport trans).2.data = trans.data := by
  unfold Memory.bTransport
  simp only
  split
  · exact ⟨rfl, by simp, rfl⟩
  · split
    · exact ⟨rfl, by simp, rfl⟩
    · split
      · exact ⟨rfl, by simp, rfl⟩
      · rename_i hadr hbyte hburst
        refine absurd ⟨by omega, ?_, by omega, by omega⟩ h
        simpa using hbyte

/-- A refused transaction is answered alike by any two contents of the memory. -/
theorem bTransport_refused_answer (memory other : Memory) {trans : TlmPayload}
    (h : ¬Accepts trans) : (memory.bTransport trans).2 = (other.bTransport trans).2 := by
  unfold Memory.bTransport
  simp only
  split
  · rfl
  · split
    · rfl
    · split
      · rfl
      · rename_i hadr hbyte hburst
        refine absurd ⟨by omega, ?_, by omega, by omega⟩ h
        simpa using hbyte

/-- A transaction that passes the checks is carried out. -/
theorem bTransport_of_accepts (memory : Memory) {trans : TlmPayload} (h : Accepts trans) :
    memory.bTransport trans =
      match trans.command with
      | .read =>
          (memory, { trans with
            data := overlay trans.data
              (readBytes memory.mem (4 * (trans.address.toNat / 4)) trans.dataLength.toNat)
            dmiAllowed := true
            responseStatus := .ok })
      | .write =>
          ({ mem := writeBytes memory.mem (4 * (trans.address.toNat / 4))
              (trans.data.take trans.dataLength.toNat) },
            { trans with dmiAllowed := true, responseStatus := .ok })
      | .ignore => (memory, { trans with dmiAllowed := true, responseStatus := .ok }) := by
  rcases h with ⟨hadr, hbyte, hlen, hwid⟩
  have hburst : ¬(trans.dataLength.toNat > 4 ∨
      trans.streamingWidth.toNat < trans.dataLength.toNat) := by omega
  simp only [Memory.bTransport, ge_iff_le, Nat.not_le.mpr hadr, if_false, hbyte,
    Option.isSome_none, Bool.false_eq_true, hburst]

theorem bTransport_read (memory : Memory) {trans : TlmPayload} (h : Accepts trans)
    (hcommand : trans.command = .read) :
    memory.bTransport trans =
      (memory, { trans with
        data := overlay trans.data
          (readBytes memory.mem (4 * (trans.address.toNat / 4)) trans.dataLength.toNat)
        dmiAllowed := true
        responseStatus := .ok }) := by
  rw [bTransport_of_accepts memory h, hcommand]

theorem bTransport_write (memory : Memory) {trans : TlmPayload} (h : Accepts trans)
    (hcommand : trans.command = .write) :
    memory.bTransport trans =
      ({ mem := writeBytes memory.mem (4 * (trans.address.toNat / 4))
          (trans.data.take trans.dataLength.toNat) },
        { trans with dmiAllowed := true, responseStatus := .ok }) := by
  rw [bTransport_of_accepts memory h, hcommand]

end SystemC
end AislabVP
