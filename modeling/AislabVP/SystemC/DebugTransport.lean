import AislabVP.SystemC.Bounds
import AislabVP.SystemC.Dispatcher

/-!
# The debug access of the target

`Memory::transport_dbg` copies without the checks of `b_transport`.  It only limits the
number of bytes to what is left between the addressed word and the end of `mem`, and it
computes this in 64 bits without a sign: behind the end of `mem` the difference wraps
around, and the limit is of no effect.

`DebugAgrees` asks that the call stays inside `mem`, returns the number of bytes it copied,
and agrees with `b_transport` on short transactions.  Reads and writes do so up to the word
just behind the end of `mem`, and farther behind it exactly when they are empty
(`debugAgrees_iff`).
-/

namespace AislabVP
namespace SystemC

open Foundation Vpipc

/-- `(SIZE - adr) * 4`.  The enumerator is converted to the type of `adr`. -/
def bytesToEnd (trans : TlmPayload) : BitVec 64 :=
  let adr := trans.address / 4
  (BitVec.ofNat 64 memorySize - adr) * 4

/-- `num_bytes`, which `transport_dbg` returns. -/
def transportDbgNumBytes (trans : TlmPayload) : BitVec 32 :=
  let len := trans.dataLength
  -- The conditional expression has 64 bits and is narrowed.
  if len.setWidth 64 < bytesToEnd trans then len else (bytesToEnd trans).setWidth 32

/-- `Memory::transport_dbg`: the memory, the transaction and the value returned.  Cells
from `4 * SIZE` on are what lies behind `mem`. -/
def Memory.transportDbg (memory : Memory) (trans : TlmPayload) :
    Memory × TlmPayload × BitVec 32 :=
  let adr := trans.address.toNat / 4
  let numBytes := transportDbgNumBytes trans
  match trans.command with
  | .read =>
      (memory, { trans with data := overlay trans.data (readBytes memory.mem (4 * adr)
        numBytes.toNat) }, numBytes)
  | .write =>
      ({ mem := writeBytes memory.mem (4 * adr) (trans.data.take numBytes.toNat) }, trans, numBytes)
  | .ignore => (memory, trans, numBytes)

/-- The `memcpy` of `transport_dbg`, on the side of `mem`. -/
def transportDbgAccesses (trans : TlmPayload) : List Access :=
  match trans.command with
  | .read | .write =>
      [{ target := .mem, start := 4 * (trans.address.toNat / 4),
         count := (transportDbgNumBytes trans).toNat }]
  | .ignore => []

/-- The debug access of a transaction is what it should be. -/
structure DebugAgrees (trans : TlmPayload) : Prop where
  inside : ∀ access ∈ transportDbgAccesses trans, ∀ cell, access.TouchesMem cell →
    cell < AccessedObject.mem.size
  returnsCopied : (transportDbgNumBytes trans).toNat =
    ((transportDbgAccesses trans).map Access.count).sum
  numBytes : (transportDbgNumBytes trans).toNat =
    if trans.address.toNat < 4 * memorySize then
      min trans.dataLength.toNat (4 * memorySize - 4 * (trans.address.toNat / 4))
    else 0
  accepted : ∀ memory : Memory, trans.dataLength.toNat ≤ 4 →
    (memory.bTransport trans).2.responseStatus = .ok →
      (memory.transportDbg trans).1 = (memory.bTransport trans).1 ∧
        (memory.transportDbg trans).2.1.data = (memory.bTransport trans).2.data
  refused : ∀ memory : Memory, trans.dataLength.toNat ≤ 4 →
    (memory.bTransport trans).2.responseStatus = .addressError →
      (memory.transportDbg trans).1 = memory ∧ (memory.transportDbg trans).2.1.data = trans.data

/-! ## The number of bytes -/

variable {trans : TlmPayload}

theorem bytesToEnd_of_le (hadr : trans.address.toNat / 4 ≤ memorySize) :
    (bytesToEnd trans).toNat = 4 * memorySize - 4 * (trans.address.toNat / 4) := by
  have hsize : memorySize = 0x6000000 := rfl
  have hquotient : (trans.address / 4).toNat = trans.address.toNat / 4 := BitVec.toNat_udiv
  have hfour : (4 : BitVec 64).toNat = 4 := rfl
  rw [bytesToEnd, BitVec.toNat_mul, BitVec.toNat_sub, hquotient, BitVec.toNat_ofNat, hfour]
  omega

/-- Behind the end the difference wraps around: the limit is above the size of `mem`. -/
theorem lt_bytesToEnd_of_lt (hadr : memorySize < trans.address.toNat / 4) :
    4 * memorySize < (bytesToEnd trans).toNat := by
  have hsize : memorySize = 0x6000000 := rfl
  have haddress := trans.address.isLt
  have hquotient : (trans.address / 4).toNat = trans.address.toNat / 4 := BitVec.toNat_udiv
  have hfour : (4 : BitVec 64).toNat = 4 := rfl
  rw [bytesToEnd, BitVec.toNat_mul, BitVec.toNat_sub, hquotient, BitVec.toNat_ofNat, hfour]
  omega

theorem transportDbgNumBytes_eq_min (trans : TlmPayload) :
    (transportDbgNumBytes trans).toNat = min trans.dataLength.toNat (bytesToEnd trans).toNat := by
  have hlength := trans.dataLength.isLt
  have hwide : (trans.dataLength.setWidth 64).toNat = trans.dataLength.toNat := by
    rw [BitVec.toNat_setWidth]
    omega
  unfold transportDbgNumBytes
  simp only [BitVec.lt_def, hwide]
  split
  · omega
  · rw [BitVec.toNat_setWidth]
    omega

/-- Up to the end of `mem` it is what the comment of the source says. -/
theorem transportDbgNumBytes_of_le (hadr : trans.address.toNat / 4 ≤ memorySize) :
    (transportDbgNumBytes trans).toNat =
      min trans.dataLength.toNat (4 * memorySize - 4 * (trans.address.toNat / 4)) := by
  rw [transportDbgNumBytes_eq_min, bytesToEnd_of_le hadr]

/-- Behind it an access that is not empty has a length. -/
theorem transportDbgNumBytes_pos (hadr : memorySize < trans.address.toNat / 4)
    (hlength : trans.dataLength.toNat ≠ 0) : 0 < (transportDbgNumBytes trans).toNat := by
  have hlimit := lt_bytesToEnd_of_lt hadr
  rw [transportDbgNumBytes_eq_min]
  omega

/-! ## The effect -/

/-- An access of no bytes changes nothing. -/
theorem transportDbg_of_no_bytes (memory : Memory)
    (hnone : (transportDbgNumBytes trans).toNat = 0) :
    (memory.transportDbg trans).1 = memory ∧ (memory.transportDbg trans).2.1.data = trans.data := by
  unfold Memory.transportDbg
  cases trans.command with
  | read => simp [hnone, readBytes, overlay]
  | write =>
      refine ⟨?_, rfl⟩
      simp only [hnone, List.take_zero]
      exact congrArg Memory.mk (funext fun cell => writeBytes_outside memory.mem _ _ (by simp))
  | ignore => exact ⟨rfl, rfl⟩

/-- A short access to a word of `mem` copies as `b_transport` does. -/
theorem transportDbg_of_accepts (memory : Memory) (haccepts : Accepts trans) :
    (memory.transportDbg trans).1 = (memory.bTransport trans).1 ∧
      (memory.transportDbg trans).2.1.data = (memory.bTransport trans).2.data := by
  have hsame : (transportDbgNumBytes trans).toNat = trans.dataLength.toNat := by
    obtain ⟨hadr, -, hlength, -⟩ := haccepts
    rw [transportDbgNumBytes_of_le hadr.le]
    omega
  rw [bTransport_of_accepts memory haccepts]
  unfold Memory.transportDbg
  cases trans.command with
  | read => simp only [hsame, and_self]
  | write => simp only [hsame, and_self]
  | ignore => exact ⟨rfl, rfl⟩

/-- An address error is an address behind `mem`. -/
theorem addressError_iff (memory : Memory) (trans : TlmPayload) :
    (memory.bTransport trans).2.responseStatus = .addressError ↔
      memorySize ≤ trans.address.toNat / 4 := by
  unfold Memory.bTransport
  simp only
  by_cases hadr : trans.address.toNat / 4 ≥ memorySize
  · rw [if_pos hadr]
    exact iff_of_true rfl hadr
  · rw [if_neg hadr]
    refine iff_of_false ?_ hadr
    split
    · exact nofun
    · split
      · exact nofun
      · cases trans.command <;> exact nofun

/-! ## The result -/

/-- An access of no bytes is what it should be, if it should be of no bytes. -/
theorem debugAgrees_of_no_bytes (hnone : (transportDbgNumBytes trans).toNat = 0)
    (hright : trans.address.toNat < 4 * memorySize → trans.dataLength.toNat = 0) :
    DebugAgrees trans where
  inside := by
    intro access haccess cell htouches
    have hcount : access.count = 0 := by
      unfold transportDbgAccesses at haccess
      split at haccess
      · rw [List.mem_singleton.mp haccess, hnone]
      · rw [List.mem_singleton.mp haccess, hnone]
      · cases haccess
    obtain ⟨-, hlow, hhigh⟩ := htouches
    omega
  returnsCopied := by
    unfold transportDbgAccesses
    split <;> simp [hnone]
  numBytes := by
    rw [hnone]
    split
    · rename_i hbelow
      rw [hright hbelow, Nat.zero_min]
    · rfl
  accepted := fun memory _ hok => transportDbg_of_accepts memory ((bTransport_ok_iff _ _).mp hok)
  refused := fun memory _ _ => transportDbg_of_no_bytes memory hnone

theorem transportDbgAccesses_eq (hcommand : trans.command ≠ .ignore) :
    transportDbgAccesses trans =
      [{ target := .mem, start := 4 * (trans.address.toNat / 4),
         count := (transportDbgNumBytes trans).toNat }] := by
  unfold transportDbgAccesses
  cases htrans : trans.command with
  | read => rfl
  | write => rfl
  | ignore => exact absurd htrans hcommand

theorem sum_count_singleton (access : Access) :
    ([access].map Access.count).sum = access.count := by
  simp

/-- A read or write of words of `mem`, of any length. -/
theorem debugAgrees_of_lt (hadr : trans.address.toNat / 4 < memorySize)
    (hcommand : trans.command ≠ .ignore) : DebugAgrees trans := by
  have hbytes := transportDbgNumBytes_of_le hadr.le
  have haccesses := transportDbgAccesses_eq hcommand
  constructor
  · intro access haccess cell htouches
    rw [haccesses] at haccess
    rw [List.mem_singleton.mp haccess] at htouches
    obtain ⟨-, -, hhigh⟩ := htouches
    show cell < 4 * memorySize
    simp only [hbytes] at hhigh
    omega
  · rw [haccesses, sum_count_singleton]
  · have hbelow : trans.address.toNat < 4 * memorySize := by omega
    rw [if_pos hbelow, hbytes]
  · exact fun memory _ hok => transportDbg_of_accepts memory ((bTransport_ok_iff _ _).mp hok)
  · exact fun memory _ herror => absurd ((addressError_iff memory trans).mp herror) hadr.not_ge

/-- The debug access of a transaction is what it should be if and only if the transaction
is empty, or addresses the word just behind the end of `mem`, or is a read or write that
addresses a word of `mem`. -/
theorem debugAgrees_iff (trans : TlmPayload) :
    DebugAgrees trans ↔ trans.dataLength.toNat = 0 ∨ trans.address.toNat / 4 = memorySize ∨
      (trans.address.toNat / 4 < memorySize ∧ trans.command ≠ .ignore) := by
  constructor
  · intro hagrees
    by_contra hother
    simp only [not_or, not_and, not_not] at hother
    obtain ⟨hlength, hend, hignored⟩ := hother
    rcases Nat.lt_or_gt_of_ne hend with hbelow | hbehind
    · -- Nothing is copied, and the value returned is not zero.
      have hnone := hagrees.returnsCopied
      rw [transportDbgAccesses, hignored hbelow, transportDbgNumBytes_of_le hbelow.le] at hnone
      simp only [List.map_nil, List.sum_nil] at hnone
      omega
    · have hpositive := transportDbgNumBytes_pos hbehind hlength
      have hnone := hagrees.numBytes
      have hbeyond : ¬trans.address.toNat < 4 * memorySize := by omega
      rw [if_neg hbeyond] at hnone
      omega
  · rintro (hempty | hend | ⟨hbelow, hcommand⟩)
    · refine debugAgrees_of_no_bytes ?_ fun _ => hempty
      rw [transportDbgNumBytes_eq_min, hempty, Nat.zero_min]
    · refine debugAgrees_of_no_bytes ?_ (by omega)
      rw [transportDbgNumBytes_of_le hend.le, hend, Nat.sub_self, Nat.min_zero]
    · exact debugAgrees_of_lt hbelow hcommand

/-- A read of the second word behind the end of `mem`. -/
def readBehindEnd : TlmPayload where
  command := .read
  address := 0x18000004
  data := [0, 0, 0, 0]
  dataLength := 4
  byteEnable := none
  streamingWidth := 4
  dmiAllowed := false
  responseStatus := .incomplete

/-- `b_transport` answers an address error; `transport_dbg` copies four bytes from behind
`mem` and returns 4. -/
theorem read_behind_end_is_copied :
    transportDbgNumBytes readBehindEnd = 4 ∧
      transportDbgAccesses readBehindEnd = [{ target := .mem, start := 0x18000004, count := 4 }] ∧
      (∀ memory : Memory,
        (memory.bTransport readBehindEnd).2.responseStatus = .addressError) ∧
      ¬DebugAgrees readBehindEnd := by
  refine ⟨by decide, rfl, fun memory => rfl, fun hagrees => ?_⟩
  have hnone := hagrees.numBytes
  exact absurd hnone (by decide)

end SystemC
end AislabVP
