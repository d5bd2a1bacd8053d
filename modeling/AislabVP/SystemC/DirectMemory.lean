import AislabVP.Foundation.Bisimulation
import AislabVP.SystemC.DebugTransport

/-!
# The direct memory interface

A target has three interfaces for the same memory: `b_transport`, `transport_dbg`, and the
pointer that `get_direct_mem_ptr` hands out and that `b_transport` advertises with its hint.  The
pointer is a pointer to bytes of `mem`, and the first two interfaces divide the address by four.

An initiator may take any of them for each of its accesses, and never see a difference, exactly
when all its accesses are at the start of a word, or empty, or no reads and writes, or beyond the
region of the pointer (`anyPath_iff`).
-/

namespace AislabVP
namespace SystemC

open Foundation

/-- `tlm_dmi`, without the latencies.  `dmiPtr` is the position in `mem` that it points to. -/
structure TlmDmi where
  dmiPtr : Nat
  startAddress : BitVec 64
  endAddress : BitVec 64
  readAllowed : Bool
  writeAllowed : Bool
  deriving DecidableEq, Repr

/-- `Memory::get_direct_mem_ptr`: what it sets and what it returns. -/
def getDirectMemPtr : TlmDmi × Bool :=
  ({ dmiPtr := 0
     startAddress := 0
     endAddress := BitVec.ofNat 64 (memorySize * 4 - 1)
     readAllowed := true
     writeAllowed := true }, true)

/-- An initiator may use the pointer for the command and for all bytes of the transaction. -/
def TlmDmi.Covers (dmi : TlmDmi) (trans : TlmPayload) : Prop :=
  dmi.startAddress.toNat ≤ trans.address.toNat ∧
    trans.address.toNat + trans.dataLength.toNat ≤ dmi.endAddress.toNat + 1 ∧
    match trans.command with
    | .read => dmi.readAllowed = true
    | .write => dmi.writeAllowed = true
    | .ignore => False

instance (dmi : TlmDmi) (trans : TlmPayload) : Decidable (dmi.Covers trans) := by
  unfold TlmDmi.Covers
  cases trans.command <;> infer_instance

/-- What an initiator does through the pointer: `memcpy` from or to
`dmi_ptr + (address - start_address)`, without a call of the target. -/
def TlmDmi.access (dmi : TlmDmi) (memory : Memory) (trans : TlmPayload) : Memory × List Byte :=
  let position := dmi.dmiPtr + (trans.address.toNat - dmi.startAddress.toNat)
  let len := trans.dataLength.toNat
  match trans.command with
  | .read => (memory, overlay trans.data (readBytes memory.mem position len))
  | .write => ({ mem := writeBytes memory.mem position (trans.data.take len) }, trans.data)
  | .ignore => (memory, trans.data)

/-- The interfaces of the target. -/
inductive TlmPath where
  | transport
  | debug
  | direct
  deriving DecidableEq, Repr

/-- A transaction by one of the interfaces: the memory and the initiator's buffer after it.
Where the pointer is not granted for it, the initiator calls `b_transport`. -/
def accessBy (path : TlmPath) (memory : Memory) (trans : TlmPayload) : Memory × List Byte :=
  match path with
  | .transport => ((memory.bTransport trans).1, (memory.bTransport trans).2.data)
  | .debug => ((memory.transportDbg trans).1, (memory.transportDbg trans).2.1.data)
  | .direct =>
      let (dmi, granted) := getDirectMemPtr
      if granted = true ∧ dmi.Covers trans then dmi.access memory trans
      else ((memory.bTransport trans).1, (memory.bTransport trans).2.data)

/-- A step of an initiator, with the buffer as its output. -/
def pathStep (memory : Memory) (access : TlmPath × TlmPayload) : Option (Memory × List Byte) :=
  some (accessBy access.1 memory access.2)

/-- The same step of an initiator that only calls `b_transport`. -/
def transportStep (memory : Memory) (access : TlmPath × TlmPayload) :
    Option (Memory × List Byte) :=
  some (accessBy .transport memory access.2)

/-- What an access is, without the data. -/
structure TlmShape where
  command : TlmCommand
  address : BitVec 64
  dataLength : BitVec 32
  deriving DecidableEq, Repr

/-- The shape of a transaction. -/
def TlmPayload.shape (trans : TlmPayload) : TlmShape where
  command := trans.command
  address := trans.address
  dataLength := trans.dataLength

/-- At most a word, from an address in `mem`. -/
def TlmShape.Short (shape : TlmShape) : Prop :=
  shape.address.toNat / 4 < memorySize ∧ shape.dataLength.toNat ≤ 4

/-- The target carries the transaction out, and the buffer has room for the data. -/
def Sound (trans : TlmPayload) : Prop :=
  Accepts trans ∧ trans.dataLength.toNat ≤ trans.data.length

/-- The pointer makes no difference to the access. -/
def TlmShape.Plain (shape : TlmShape) : Prop :=
  shape.command = .ignore ∨ shape.dataLength.toNat = 0 ∨ shape.address.toNat % 4 = 0 ∨
    4 * memorySize < shape.address.toNat + shape.dataLength.toNat

/-! ## One access -/

section Access

variable {trans : TlmPayload}

/-- The region of the pointer is the array. -/
theorem covers_iff : getDirectMemPtr.1.Covers trans ↔
    trans.address.toNat + trans.dataLength.toNat ≤ 4 * memorySize ∧ trans.command ≠ .ignore := by
  have hstart : getDirectMemPtr.1.startAddress.toNat = 0 := rfl
  have hend : getDirectMemPtr.1.endAddress.toNat + 1 = 4 * memorySize := by decide
  unfold TlmDmi.Covers
  rw [hstart, hend]
  cases trans.command with
  | read => simp [getDirectMemPtr]
  | write => simp [getDirectMemPtr]
  | ignore => simp

theorem accessBy_direct (memory : Memory) (hcovers : getDirectMemPtr.1.Covers trans) :
    accessBy .direct memory trans = getDirectMemPtr.1.access memory trans := by
  have hgranted : getDirectMemPtr.2 = true := rfl
  simp only [accessBy, hgranted, hcovers, and_self, if_true]

theorem accessBy_direct_of_not_covers (memory : Memory)
    (hcovers : ¬getDirectMemPtr.1.Covers trans) :
    accessBy .direct memory trans = accessBy .transport memory trans := by
  simp only [accessBy, hcovers, and_false, if_false]

/-- Through the pointer a transaction goes to its own bytes, not to the start of their word. -/
theorem access_getDirectMemPtr (memory : Memory) (trans : TlmPayload) :
    getDirectMemPtr.1.access memory trans =
      match trans.command with
      | .read =>
          (memory, overlay trans.data
            (readBytes memory.mem trans.address.toNat trans.dataLength.toNat))
      | .write =>
          ({ mem := writeBytes memory.mem trans.address.toNat
              (trans.data.take trans.dataLength.toNat) }, trans.data)
      | .ignore => (memory, trans.data) := by
  unfold TlmDmi.access getDirectMemPtr
  simp

theorem accessBy_transport (memory : Memory) (haccepts : Accepts trans) :
    accessBy .transport memory trans =
      match trans.command with
      | .read =>
          (memory, overlay trans.data
            (readBytes memory.mem (4 * (trans.address.toNat / 4)) trans.dataLength.toNat))
      | .write =>
          ({ mem := writeBytes memory.mem (4 * (trans.address.toNat / 4))
              (trans.data.take trans.dataLength.toNat) }, trans.data)
      | .ignore => (memory, trans.data) := by
  rw [accessBy, bTransport_of_accepts memory haccepts]
  cases trans.command <;> rfl

theorem accessBy_debug (memory : Memory) (haccepts : Accepts trans) :
    accessBy .debug memory trans = accessBy .transport memory trans := by
  obtain ⟨hmemory, hdata⟩ := transportDbg_of_accepts memory haccepts
  rw [accessBy, accessBy, hmemory, hdata]

/-- A plain access is the same by all interfaces. -/
theorem accessBy_of_plain (path : TlmPath) (memory : Memory) (haccepts : Accepts trans)
    (hplain : trans.shape.Plain) :
    accessBy path memory trans = accessBy .transport memory trans := by
  cases path with
  | transport => rfl
  | debug => exact accessBy_debug memory haccepts
  | direct =>
      by_cases hcovers : getDirectMemPtr.1.Covers trans
      · rw [accessBy_direct memory hcovers, access_getDirectMemPtr,
          accessBy_transport memory haccepts]
        obtain ⟨hinside, hcommand⟩ := covers_iff.mp hcovers
        rcases hplain with hignore | hempty | hword | hbeyond
        · exact absurd hignore hcommand
        · change trans.dataLength.toNat = 0 at hempty
          simp only [hempty, List.take_zero, writeBytes_nil, readBytes, List.range_zero,
            List.map_nil]
        · change trans.address.toNat % 4 = 0 at hword
          rw [show 4 * (trans.address.toNat / 4) = trans.address.toNat by omega]
        · exact absurd hinside (Nat.not_le.mpr hbeyond)
      · exact accessBy_direct_of_not_covers memory hcovers

end Access

/-! ## The other accesses -/

section Probe

variable {shape : TlmShape}

/-- A transaction of a shape, with ones in the buffer. -/
def TlmShape.probe (shape : TlmShape) : TlmPayload where
  command := shape.command
  address := shape.address
  data := [1, 1, 1, 1]
  dataLength := shape.dataLength
  byteEnable := none
  streamingWidth := shape.dataLength
  dmiAllowed := true
  responseStatus := .incomplete

/-- Zeros, but for a one at the address itself. -/
def TlmShape.probedMemory (shape : TlmShape) : Memory where
  mem := fun cell => if cell = shape.address.toNat then 1 else 0

theorem sound_probe (hshort : shape.Short) : Sound shape.probe :=
  ⟨⟨hshort.1, rfl, hshort.2, Nat.le_refl _⟩, hshort.2⟩

theorem head?_overlay_readBytes (buffer : List Byte) (store : ByteStore) (addr : Nat) {count : Nat}
    (hcount : 0 < count) :
    (overlay buffer (readBytes store addr count)).head? = some (store addr) := by
  obtain ⟨count, rfl⟩ : ∃ rest, count = rest + 1 := ⟨count - 1, by omega⟩
  simp [overlay, readBytes, List.range_succ_eq_map]

/-- An access that is not plain tells the pointer from `b_transport`. -/
theorem probe_differs (hshort : shape.Short) (hplain : ¬shape.Plain) :
    accessBy .direct shape.probedMemory shape.probe ≠
      accessBy .transport shape.probedMemory shape.probe := by
  simp only [TlmShape.Plain, not_or, Nat.not_lt] at hplain
  obtain ⟨hcommand, hlength, hword, hinside⟩ := hplain
  have hcovers : getDirectMemPtr.1.Covers shape.probe := covers_iff.mpr ⟨hinside, hcommand⟩
  have hbelow : 4 * (shape.address.toNat / 4) < shape.address.toNat := by omega
  have hzero : shape.probedMemory.mem (4 * (shape.address.toNat / 4)) = 0 := if_neg (by omega)
  have hone : shape.probedMemory.mem shape.address.toNat = 1 := if_pos rfl
  rw [accessBy_direct _ hcovers, access_getDirectMemPtr,
    accessBy_transport _ (sound_probe hshort).1]
  intro hsame
  cases hcase : shape.command with
  | ignore => exact hcommand hcase
  | read =>
      simp only [TlmShape.probe, hcase] at hsame
      have hheads := congrArg (fun after => List.head? after.2) hsame
      simp only [head?_overlay_readBytes _ _ _ (Nat.pos_of_ne_zero hlength), hone, hzero] at hheads
      exact absurd hheads (by decide)
  | write =>
      simp only [TlmShape.probe, hcase] at hsame
      have hcells := congrArg (fun after => after.1.mem (4 * (shape.address.toNat / 4))) hsame
      obtain ⟨rest, hbytes⟩ : ∃ rest : List Byte, [1, 1, 1, 1].take shape.dataLength.toNat =
          1 :: rest := by
        obtain ⟨count, hcount⟩ := Nat.exists_eq_add_one_of_ne_zero hlength
        exact ⟨_, by rw [hcount, List.take_succ_cons]⟩
      have hwritten := writeBytes_inside shape.probedMemory.mem (4 * (shape.address.toNat / 4))
        (1 :: rest) (Nat.zero_lt_succ rest.length)
      rw [Nat.add_zero, List.getElem_cons_zero] at hwritten
      simp only [hbytes, hwritten] at hcells
      rw [writeBytes_outside _ _ _ (by omega), hzero] at hcells
      exact absurd hcells (by decide)

end Probe

/-- An initiator whose accesses are of some short shapes may take any interface for each of them,
whatever the memory and the data, if and only if all the shapes are plain. -/
theorem anyPath_iff (shapes : TlmShape → Prop) (hshort : ∀ shape, shapes shape → shape.Short) :
    (∀ (memory : Memory) (program : List (TlmPath × TlmPayload)),
      (∀ access ∈ program, shapes access.2.shape ∧ Sound access.2) →
        runOutputs pathStep memory program = runOutputs transportStep memory program) ↔
      ∀ shape, shapes shape → shape.Plain := by
  constructor
  · intro hall shape hshape
    by_contra hplain
    have hsame := hall shape.probedMemory [(.direct, shape.probe)] (by
      intro access hmem
      obtain rfl := List.mem_singleton.mp hmem
      exact ⟨hshape, sound_probe (hshort shape hshape)⟩)
    apply probe_differs (hshort shape hshape) hplain
    obtain ⟨hbuffers, hmemory⟩ := Prod.mk.inj hsame
    exact Prod.ext hmemory (List.cons.inj hbuffers).1
  · intro hplain memory program hprogram
    have halike : StepsAlike Eq
        (fun _ (access : TlmPath × TlmPayload) => shapes access.2.shape ∧ Sound access.2)
        pathStep transportStep := by
      rintro memory _ access rfl ⟨hshape, haccepts, -⟩
      refine .inr ⟨_, (accessBy .transport memory access.2).1,
        (accessBy .transport memory access.2).2, ?_, rfl, rfl⟩
      rw [pathStep, accessBy_of_plain access.1 memory haccepts (hplain _ hshape)]
    have hallowed : AllowedRun transportStep
        (fun _ access => shapes access.2.shape ∧ Sound access.2) memory program :=
      allowedRun_of_forall (fun access hmem _ => hprogram access hmem) memory
    obtain ⟨houtputs, hfinal⟩ := runOutputs_alike halike rfl hallowed
    exact Prod.ext houtputs hfinal

/-- A byte read of the second byte of `mem`. -/
def secondByte : TlmShape where
  command := .read
  address := 1
  dataLength := 1

/-- Words may be accessed by any interface; byte one may not, since `b_transport` reads byte
zero. -/
theorem anyPath_words_not_bytes :
    (∀ (memory : Memory) (program : List (TlmPath × TlmPayload)),
      (∀ access ∈ program, (access.2.shape.Short ∧ access.2.shape.address.toNat % 4 = 0) ∧
        Sound access.2) →
        runOutputs pathStep memory program = runOutputs transportStep memory program) ∧
      ¬∀ (memory : Memory) (program : List (TlmPath × TlmPayload)),
        (∀ access ∈ program, access.2.shape = secondByte ∧ Sound access.2) →
          runOutputs pathStep memory program = runOutputs transportStep memory program := by
  constructor
  · exact (anyPath_iff (fun shape => shape.Short ∧ shape.address.toNat % 4 = 0)
      fun _ hshape => hshape.1).mpr fun _ hshape => .inr (.inr (.inl hshape.2))
  · intro hall
    have hshort : ∀ shape, shape = secondByte → shape.Short := by
      rintro _ rfl
      exact ⟨by decide, by decide⟩
    have hplain := (anyPath_iff (· = secondByte) hshort).mp hall secondByte rfl
    revert hplain
    unfold TlmShape.Plain
    decide

end SystemC
end AislabVP
