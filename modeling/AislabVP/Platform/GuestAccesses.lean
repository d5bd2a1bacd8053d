import AislabVP.Foundation.Parts
import AislabVP.Platform.PrivateWords

/-!
# Guest accesses of up to eight bytes

`mmio_bus_ops` names no access sizes, so QEMU's core calls the callbacks for at most four bytes
at a time, and a doubleword of the guest is more than one call.  Between these calls `dev->mutex`
is free: nothing in the device keeps a call of another vCPU from coming in between.

A program that has its part of the window for itself does not notice: on every schedule its
complete accesses have the answers and the effect of whole accesses of an array of bytes
(`guestProgram_seesWhole`), for any way of making the calls that emulates the accesses
(`CoreSplit`).  The program `test_speed.c`, which stores doublewords, finds each of them in the
window as soon as it is stored (`testSpeed_stores`).
-/

namespace AislabVP
namespace Platform

open Foundation Vpipc Qemu SystemC

/-! ## What the core makes of an access -/

/-- An aligned load or store of the guest that begins with a word of the window, with the
offset and the size that the instruction has. -/
structure GuestAccess (access : MmioCall) : Prop where
  size : access.shape.size.toNat = 1 ∨ access.shape.size.toNat = 2 ∨
    access.shape.size.toNat = 4 ∨ access.shape.size.toNat = 8
  aligned : access.shape.offset.toNat % access.shape.size.toNat = 0
  word : access.shape.offset.toNat % 4 = 0
  fits : access.shape.offset.toNat + access.shape.size.toNat ≤ mmioSize

/-- How QEMU's core carries out the accesses of the guest on a region: by calls of the sizes that
the region implements, inside of the access, which emulate it on an array of bytes. -/
structure CoreSplit where
  calls : MmioCall → List MmioCall
  answer : MmioCall → List (Option (BitVec 64)) → Option (BitVec 64)
  word : ∀ access, GuestAccess access → ∀ call ∈ calls access, WordCall call
  direction : ∀ access, GuestAccess access → ∀ call ∈ calls access,
    call.shape.isWrite = access.shape.isWrite
  inside : ∀ access, GuestAccess access → ∀ call ∈ calls access,
    access.shape.offset.toNat ≤ call.shape.offset.toNat ∧
      call.shape.offset.toNat + call.shape.size.toNat ≤
        access.shape.offset.toNat + access.shape.size.toNat
  emulates : ∀ access, GuestAccess access → MadeOf windowCall windowCall calls answer access

section Split

variable {core : CoreSplit} {region : Nat → Prop} {access : MmioCall}

theorem CoreSplit.inRegion (hguest : GuestAccess access) (hregion : access.InRegion region)
    {call : MmioCall} (hcall : call ∈ core.calls access) : call.InRegion region := by
  obtain ⟨hfrom, hto⟩ := core.inside access hguest call hcall
  intro cell hlow hhigh
  apply hregion cell
  · omega
  · omega

theorem CoreSplit.spares (hguest : GuestAccess access) (hspares : access.Spares region)
    {call : MmioCall} (hcall : call ∈ core.calls access) : call.Spares region := by
  intro hwrite
  rw [core.direction access hguest call hcall] at hwrite
  exact CoreSplit.inRegion hguest (hspares hwrite) hcall

/-- Calls that write no cell of a region leave it as it is. -/
theorem agreeOn_of_spares {start after : ByteStore}
    {log : List (MmioCall × Option (BitVec 64))} (hlog : Replays windowCall start log after)
    (hspares : ∀ call ∈ log.map Prod.fst, call.Spares region) : AgreeOn region after start := by
  induction log generalizing start with
  | nil =>
      obtain rfl := hlog
      exact fun _ _ => rfl
  | cons operation rest ih =>
      obtain ⟨call, output⟩ := operation
      obtain ⟨hfirst, hrest⟩ := List.forall_mem_cons.mp hspares
      obtain ⟨next, hrun, hlater⟩ := hlog
      have hnext : AgreeOn region next start :=
        windowCall_spares start start call next output (fun _ _ => rfl) hfirst hrun
      intro cell hcell
      rw [ih hlater hrest cell hcell, hnext cell hcell]

end Split

/-! ## `access_with_adjusted_size` -/

/-- `access_size`, with four for the largest size, which is the core's default. -/
def accessSize (size : BitVec 32) : Nat := max (min size.toNat 4) 1

/-- `access_mask`. -/
def accessMask (size : BitVec 32) : BitVec 64 := BitVec.ofNat 64 (2 ^ (8 * accessSize size) - 1)

/-- The values of the loop variable, which starts with zero and grows by `access_size` as long as
it is less than the size. -/
def accessStarts (size : BitVec 32) : List Nat :=
  (List.range ((size.toNat + accessSize size - 1) / accessSize size)).map (· * accessSize size)

/-- The calls of one access. -/
def adjustedCalls : MmioCall → List MmioCall
  | .read offset size =>
      (accessStarts size).map fun start =>
        .read (offset + BitVec.ofNat 64 start) (BitVec.ofNat 32 (accessSize size))
  | .write offset value size =>
      (accessStarts size).map fun start =>
        .write (offset + BitVec.ofNat 64 start) ((value >>> (8 * start)) &&& accessMask size)
          (BitVec.ofNat 32 (accessSize size))

/-- `*value |= (tmp & mask) << shift`, for the calls in turn. -/
def shiftedValue (mask : BitVec 64) : List (Nat × Option (BitVec 64)) → BitVec 64
  | [] => 0#64
  | (start, tmp) :: rest => ((tmp.getD 0 &&& mask) <<< (8 * start)) ||| shiftedValue mask rest

/-- The answer of one access. -/
def adjustedAnswer : MmioCall → List (Option (BitVec 64)) → Option (BitVec 64)
  | .read _ size, answers => some (shiftedValue (accessMask size) ((accessStarts size).zip answers))
  | .write _ _ _, _ => none

section Adjusted

variable {size : BitVec 32} {start : Nat}

theorem accessSize_narrow (hsize : size.toNat = 1 ∨ size.toNat = 2 ∨ size.toNat = 4) :
    accessSize size = size.toNat := by
  unfold accessSize
  omega

theorem accessStarts_wide : accessStarts 8 = [0, 4] := rfl

theorem accessStarts_narrow (hsize : size.toNat = 1 ∨ size.toNat = 2 ∨ size.toNat = 4) :
    accessStarts size = [0] := by
  unfold accessStarts
  rw [accessSize_narrow hsize]
  rcases hsize with hsize | hsize | hsize
  · rw [hsize]
    rfl
  · rw [hsize]
    rfl
  · rw [hsize]
    rfl

/-- Every call is one of the core, at a multiple of its size and of a word. -/
theorem start_of_mem (hsize : size.toNat = 1 ∨ size.toNat = 2 ∨ size.toNat = 4 ∨ size.toNat = 8)
    (hstart : start ∈ accessStarts size) :
    (accessSize size = 1 ∨ accessSize size = 2 ∨ accessSize size = 4) ∧
      start % 4 = 0 ∧ start + accessSize size ≤ size.toNat := by
  by_cases hwide : size.toNat = 8
  · obtain rfl : size = 8 := BitVec.eq_of_toNat_eq hwide
    rw [accessStarts_wide] at hstart
    have hstarts : start = 0 ∨ start = 4 := by simpa using hstart
    rcases hstarts with rfl | rfl
    · exact ⟨by decide, by decide, by decide⟩
    · exact ⟨by decide, by decide, by decide⟩
  · have hnarrow : size.toNat = 1 ∨ size.toNat = 2 ∨ size.toNat = 4 := by omega
    rw [accessStarts_narrow hnarrow] at hstart
    obtain rfl : start = 0 := List.mem_singleton.mp hstart
    rw [accessSize_narrow hnarrow]
    exact ⟨hnarrow, rfl, by omega⟩

/-- The shape of a call. -/
theorem shape_of_mem_adjustedCalls {access call : MmioCall} (hcall : call ∈ adjustedCalls access) :
    ∃ start ∈ accessStarts access.shape.size,
      call.shape =
        { isWrite := access.shape.isWrite
          offset := access.shape.offset + BitVec.ofNat 64 start
          size := BitVec.ofNat 32 (accessSize access.shape.size) } := by
  cases access with
  | read offset size =>
      obtain ⟨start, hstart, rfl⟩ := List.mem_map.mp hcall
      exact ⟨start, hstart, rfl⟩
  | write offset value size =>
      obtain ⟨start, hstart, rfl⟩ := List.mem_map.mp hcall
      exact ⟨start, hstart, rfl⟩

/-- What the numbers of a call are. -/
theorem call_of_mem_adjustedCalls {access call : MmioCall} (hguest : GuestAccess access)
    (hcall : call ∈ adjustedCalls access) :
    WordCall call ∧ call.shape.isWrite = access.shape.isWrite ∧
      access.shape.offset.toNat ≤ call.shape.offset.toNat ∧
      call.shape.offset.toNat + call.shape.size.toNat ≤
        access.shape.offset.toNat + access.shape.size.toNat := by
  obtain ⟨start, hstart, hshape⟩ := shape_of_mem_adjustedCalls hcall
  obtain ⟨hsizes, hword, hend⟩ := start_of_mem hguest.size hstart
  have hfits : access.shape.offset.toNat + access.shape.size.toNat ≤ 0x6000000 := hguest.fits
  have hoffset : (access.shape.offset + BitVec.ofNat 64 start).toNat =
      access.shape.offset.toNat + start := by
    rw [BitVec.toNat_add, BitVec.toNat_ofNat]
    omega
  have hsize : (BitVec.ofNat 32 (accessSize access.shape.size)).toNat =
      accessSize access.shape.size := by
    rw [BitVec.toNat_ofNat]
    omega
  have hwords := hguest.word
  refine ⟨⟨⟨?_, ?_, ?_⟩, ?_⟩, by rw [hshape], ?_, ?_⟩
  all_goals rw [hshape]
  all_goals simp only [hoffset, hsize]
  · exact hsizes
  · rcases hsizes with hsize | hsize | hsize
    · rw [hsize, Nat.mod_one]
    · rw [hsize]
      omega
    · rw [hsize]
      omega
  · have hwindow : mmioSize = 0x6000000 := rfl
    omega
  · omega
  · omega
  · omega

theorem toNat_and_accessMask (value : BitVec 64) (size : BitVec 32) :
    (value &&& accessMask size).toNat = value.toNat % 256 ^ accessSize size := by
  have hsmall : 2 ^ (8 * accessSize size) ≤ 2 ^ 32 :=
    Nat.pow_le_pow_right (by decide) (by unfold accessSize; omega)
  have hbase : 256 ^ accessSize size = 2 ^ (8 * accessSize size) := by
    rw [pow_mul]
    norm_num
  rw [BitVec.toNat_and, accessMask, BitVec.toNat_ofNat, Nat.mod_eq_of_lt (by omega),
    Nat.and_two_pow_sub_one_eq_mod, hbase]

/-- The value that a read of at most four bytes returns is not cut. -/
theorem and_accessMask_leValue {bytes : List Byte} (hbytes : bytes.length = accessSize size) :
    BitVec.ofNat 64 (leValue bytes) &&& accessMask size = BitVec.ofNat 64 (leValue bytes) := by
  have hvalue := leValue_lt bytes
  rw [hbytes] at hvalue
  have hsmall : 256 ^ accessSize size ≤ 256 ^ 4 :=
    Nat.pow_le_pow_right (by decide) (by unfold accessSize; omega)
  apply BitVec.eq_of_toNat_eq
  have hwhole : (BitVec.ofNat 64 (leValue bytes)).toNat = leValue bytes := by
    rw [BitVec.toNat_ofNat]
    omega
  rw [toNat_and_accessMask, hwhole, Nat.mod_eq_of_lt hvalue]

/-- Two words side by side are a doubleword. -/
theorem shiftedValue_words {low high : List Byte} (hlow : low.length = 4)
    (hhigh : high.length = 4) :
    shiftedValue (accessMask 8)
        [(0, some (BitVec.ofNat 64 (leValue low))), (4, some (BitVec.ofNat 64 (leValue high)))] =
      BitVec.ofNat 64 (leValue (low ++ high)) := by
  have hlowValue := leValue_lt low
  have hhighValue := leValue_lt high
  rw [hlow] at hlowValue
  rw [hhigh] at hhighValue
  simp only [shiftedValue, Option.getD_some, Nat.mul_zero, BitVec.shiftLeft_zero, BitVec.or_zero]
  rw [and_accessMask_leValue (show low.length = accessSize 8 from hlow),
    and_accessMask_leValue (show high.length = accessSize 8 from hhigh)]
  apply BitVec.eq_of_toNat_eq
  rw [leValue_append, hlow, BitVec.toNat_or, BitVec.toNat_shiftLeft, BitVec.toNat_ofNat,
    BitVec.toNat_ofNat, BitVec.toNat_ofNat, Nat.mod_eq_of_lt (by omega),
    Nat.mod_eq_of_lt (show leValue high < 2 ^ 64 by omega), Nat.shiftLeft_eq,
    Nat.mod_eq_of_lt (by omega), Nat.mod_eq_of_lt (by omega), Nat.or_comm, Nat.mul_comm,
    ← Nat.two_pow_add_eq_or_of_lt (by omega)]
  omega

/-- The bytes of a store that fits into one call. -/
theorem leBytes_and_accessMask (value : BitVec 64) {count : Nat}
    (hcount : count ≤ accessSize size) :
    leBytes count (value &&& accessMask size).toNat = leBytes count value.toNat := by
  rw [toNat_and_accessMask, leBytes_mod _ _ _ hcount]

theorem adjustedCalls_narrow_read (offset : BitVec 64)
    (hsize : size.toNat = 1 ∨ size.toNat = 2 ∨ size.toNat = 4) :
    adjustedCalls (.read offset size) = [.read offset size] := by
  simp [adjustedCalls, accessStarts_narrow hsize, accessSize_narrow hsize]

theorem adjustedCalls_narrow_write (offset value : BitVec 64)
    (hsize : size.toNat = 1 ∨ size.toNat = 2 ∨ size.toNat = 4) :
    adjustedCalls (.write offset value size) =
      [.write offset (value &&& accessMask size) size] := by
  simp [adjustedCalls, accessStarts_narrow hsize, accessSize_narrow hsize]

theorem adjustedCalls_wide_read (offset : BitVec 64) :
    adjustedCalls (.read offset 8) = [.read offset 4, .read (offset + 4) 4] := by
  rw [adjustedCalls, accessStarts_wide]
  simp [accessSize]

theorem adjustedCalls_wide_write (offset value : BitVec 64) :
    adjustedCalls (.write offset value 8) =
      [.write offset (value &&& accessMask 8) 4,
        .write (offset + 4) ((value >>> 32) &&& accessMask 8) 4] := by
  rw [adjustedCalls, accessStarts_wide]
  simp [accessSize]

/-- An access of at most four bytes is one call. -/
theorem madeOf_narrow {access : MmioCall} (hsize : access.shape.size.toNat = 1 ∨
      access.shape.size.toNat = 2 ∨ access.shape.size.toNat = 4) :
    MadeOf windowCall windowCall adjustedCalls adjustedAnswer access := by
  intro start log next hinputs hlog
  cases access with
  | read offset size =>
      change size.toNat = 1 ∨ size.toNat = 2 ∨ size.toNat = 4 at hsize
      have hbytes := length_readBytes start offset.toNat size.toNat
      rw [adjustedCalls_narrow_read offset hsize] at hinputs
      obtain ⟨output, reached, later, houtputs, hrun, hlater, hnone⟩ := hlog.uncons hinputs
      obtain rfl : later = [] := List.map_eq_nil_iff.mp hnone
      obtain rfl : next = reached := hlater
      obtain ⟨rfl, rfl⟩ := Prod.mk.inj (Option.some.inj hrun)
      rw [houtputs, windowCall, adjustedAnswer, accessStarts_narrow hsize]
      simp only [List.map_nil, List.zip_cons_cons, List.zip_nil_right, shiftedValue,
        Option.getD_some, Nat.mul_zero, BitVec.shiftLeft_zero, BitVec.or_zero,
        and_accessMask_leValue (hbytes.trans (accessSize_narrow hsize).symm)]
  | write offset value size =>
      change size.toNat = 1 ∨ size.toNat = 2 ∨ size.toNat = 4 at hsize
      rw [adjustedCalls_narrow_write offset value hsize] at hinputs
      obtain ⟨output, reached, later, houtputs, hrun, hlater, hnone⟩ := hlog.uncons hinputs
      obtain rfl : later = [] := List.map_eq_nil_iff.mp hnone
      obtain rfl : next = reached := hlater
      obtain ⟨rfl, rfl⟩ := Prod.mk.inj (Option.some.inj hrun)
      rw [windowCall, adjustedAnswer, leBytes_and_accessMask value (accessSize_narrow hsize).ge]

/-- A doubleword is two calls. -/
theorem madeOf_wide {access : MmioCall} (hguest : GuestAccess access)
    (hsize : access.shape.size = 8) :
    MadeOf windowCall windowCall adjustedCalls adjustedAnswer access := by
  intro start log next hinputs hlog
  have hfits : access.shape.offset.toNat + access.shape.size.toNat ≤ 0x6000000 := hguest.fits
  have hoffset : (access.shape.offset + 4).toNat = access.shape.offset.toNat + 4 := by
    rw [BitVec.toNat_add, show (4 : BitVec 64).toNat = 4 from rfl]
    omega
  cases access with
  | read offset size =>
      obtain rfl : size = 8 := hsize
      rw [adjustedCalls_wide_read] at hinputs
      obtain ⟨low, first, later, houtputs, hlow, hrest, hinputs⟩ := hlog.uncons hinputs
      obtain ⟨high, second, last, houtputs', hhigh, hlast, hnone⟩ := hrest.uncons hinputs
      obtain rfl : last = [] := List.map_eq_nil_iff.mp hnone
      obtain rfl : next = second := hlast
      obtain ⟨rfl, rfl⟩ := Prod.mk.inj (Option.some.inj hlow)
      obtain ⟨rfl, rfl⟩ := Prod.mk.inj (Option.some.inj hhigh)
      change (offset + 4).toNat = offset.toNat + 4 at hoffset
      have hbytes : readBytes start offset.toNat 8 =
          readBytes start offset.toNat 4 ++ readBytes start (offset + 4).toNat 4 := by
        rw [hoffset, ← readBytes_add]
      rw [houtputs, houtputs', windowCall, adjustedAnswer, accessStarts_wide,
        show (8 : BitVec 32).toNat = 8 from rfl, hbytes,
        ← shiftedValue_words (length_readBytes _ _ _) (length_readBytes _ _ _)]
      rfl
  | write offset value size =>
      obtain rfl : size = 8 := hsize
      rw [adjustedCalls_wide_write] at hinputs
      obtain ⟨low, first, later, houtputs, hlow, hrest, hinputs⟩ := hlog.uncons hinputs
      obtain ⟨high, second, last, houtputs', hhigh, hlast, hnone⟩ := hrest.uncons hinputs
      obtain rfl : last = [] := List.map_eq_nil_iff.mp hnone
      obtain rfl : next = second := hlast
      obtain ⟨rfl, rfl⟩ := Prod.mk.inj (Option.some.inj hlow)
      obtain ⟨rfl, rfl⟩ := Prod.mk.inj (Option.some.inj hhigh)
      change (offset + 4).toNat = offset.toNat + 4 at hoffset
      have hhighValue : (value >>> 32).toNat = value.toNat / 256 ^ 4 := by
        rw [BitVec.toNat_ushiftRight, Nat.shiftRight_eq_div_pow]
        norm_num
      have hwhole : leBytes (4 + 4) value.toNat =
          leBytes 4 (value &&& accessMask 8).toNat ++
            leBytes 4 ((value >>> 32) &&& accessMask 8).toNat := by
        rw [leBytes_add, leBytes_and_accessMask value (by decide),
          leBytes_and_accessMask (value >>> 32) (by decide), hhighValue]
      rw [windowCall, adjustedAnswer, show (8 : BitVec 32).toNat = 4 + 4 from rfl, hwhole,
        writeBytes_append, length_leBytes, ← hoffset]
      rfl

theorem adjusted_emulates (access : MmioCall) (hguest : GuestAccess access) :
    MadeOf windowCall windowCall adjustedCalls adjustedAnswer access := by
  by_cases hwide : access.shape.size.toNat = 8
  · exact madeOf_wide hguest (BitVec.eq_of_toNat_eq hwide)
  · apply madeOf_narrow
    have hsize := hguest.size
    omega

/-- `access_with_adjusted_size` on the sizes that `mmio_bus_ops` leaves open. -/
def adjustedSplit : CoreSplit where
  calls := adjustedCalls
  answer := adjustedAnswer
  word _ hguest _ hcall := (call_of_mem_adjustedCalls hguest hcall).1
  direction _ hguest _ hcall := (call_of_mem_adjustedCalls hguest hcall).2.1
  inside _ hguest _ hcall := (call_of_mem_adjustedCalls hguest hcall).2.2
  emulates := adjusted_emulates

end Adjusted

/-! ## Programs -/

section Programs

variable {ι Guest : Type*} [DecidableEq ι] (wiring : Wiring Guest) (core : CoreSplit)

/-- The accesses of a program that are complete, with the answers of each from those of its
calls. -/
abbrev completed (program : List MmioCall) (answers : List (Option (BitVec 64))) :
    List (Option (BitVec 64)) :=
  joinedAnswers core.calls core.answer program answers

/-- A program on one vCPU, in a region that no other vCPU writes: it makes the calls of its
accesses in order.  The others make calls of the core at word offsets. -/
structure RunsProgram (region : Nat → Prop) (i : ι) (program : List MmioCall)
    (history : List (ObjectEvent (Requester ι) MmioCall (Option (BitVec 64)))) : Prop where
  guest : ∀ access ∈ program, GuestAccess access
  inside : ∀ access ∈ program, access.InRegion region
  calls : invocations (.vcpu i) history <+: program.flatMap core.calls
  others : ∀ j, j ≠ i → ∀ call ∈ invocations (.vcpu j) history, WordCall call ∧ call.Spares region

section Run

variable {region : Nat → Prop} {i : ι} {program : List MmioCall} {core}

/-- The access that a call is a part of. -/
theorem RunsProgram.access_of_mem {history : List (ObjectEvent (Requester ι) MmioCall
      (Option (BitVec 64)))} (hruns : RunsProgram core region i program history) {call : MmioCall}
    (hmem : call ∈ invocations (.vcpu i) history) :
    ∃ access, GuestAccess access ∧ access.InRegion region ∧ call ∈ core.calls access := by
  obtain ⟨access, haccess, hcall⟩ := List.mem_flatMap.mp (hruns.calls.subset hmem)
  exact ⟨access, hruns.guest access haccess, hruns.inside access haccess, hcall⟩

theorem RunsProgram.seenAlone {thread : TcpThread Guest} {cpu : QemuCpu}
    {actions : List (Action ι)} {final : PlatformState ι Guest}
    (hguard : GuardedRun (step wiring) NoDma (PlatformState.initial thread cpu) actions)
    (hrun : runFrom (step wiring) (PlatformState.initial thread cpu) actions = some final)
    (hruns : RunsProgram core region i program
      (vcpuHistory wiring (PlatformState.initial thread cpu) actions)) :
    ∃ log after,
      SeenAlone windowCall (window mmioAddr.toNat cpu.memory.mem)
        (invocations (.vcpu i) (vcpuHistory wiring (PlatformState.initial thread cpu) actions))
        (responses (.vcpu i) (vcpuHistory wiring (PlatformState.initial thread cpu) actions))
        log after ∧
      AgreeOn region (window mmioAddr.toNat final.cpu.memory.mem) after := by
  have hword : InvokesOnly WordCall
      (vcpuHistory wiring (PlatformState.initial thread cpu) actions) := by
    intro party call hmem
    obtain ⟨j, rfl, -⟩ := vcpuCall_of_mem_invocations wiring hmem
    by_cases hsame : j = i
    · subst hsame
      obtain ⟨access, hguest, -, hcall⟩ := hruns.access_of_mem hmem
      exact core.word access hguest call hcall
    · exact (hruns.others j hsame call hmem).1
  have hkeeps : KeepsTo region i
      (vcpuHistory wiring (PlatformState.initial thread cpu) actions) := {
    own := by
      intro call hmem
      obtain ⟨access, hguest, hinside, hcall⟩ := hruns.access_of_mem hmem
      exact CoreSplit.inRegion hguest hinside hcall
    others := fun j hother call hmem => (hruns.others j hother call hmem).2 }
  obtain ⟨status, hhistory⟩ := atomic_window_of_noDma wiring hguard hrun hword
  exact hhistory.linearizable.alone windowCall_agree windowCall_spares hkeeps.own
    (hkeeps.foreign wiring) fun _ _ => rfl

/-- The calls after the last complete access write only cells of later stores. -/
theorem agreeOn_of_later {start after : ByteStore} {log : List (MmioCall × Option (BitVec 64))}
    (hguest : ∀ access ∈ program, GuestAccess access) {count : Nat}
    (hlog : Replays windowCall start log after)
    (hcalls : log.map Prod.fst <+: (program.drop count).flatMap core.calls) :
    AgreeOn (fun cell => ∀ access ∈ program.drop count, access.Spares (cell = ·)) after start := by
  intro cell hspared
  have hkept : AgreeOn (cell = ·) after start := by
    apply agreeOn_of_spares hlog
    intro call hmem
    obtain ⟨access, haccess, hcall⟩ := List.mem_flatMap.mp (hcalls.subset hmem)
    exact CoreSplit.spares (hguest access (List.mem_of_mem_drop haccess))
      (hspared access haccess) hcall
  exact hkept cell rfl

end Run

/-- A program of the guest in a region of its own, at any moment of any schedule of the build
without DMA: its complete accesses are the first ones, with the answers of whole accesses one
after the other, and leave the region as these do, up to the cells of later stores. -/
theorem guestProgram_seesWhole (region : Nat → Prop) (i : ι) (program : List MmioCall)
    (thread : TcpThread Guest) (cpu : QemuCpu) (actions : List (Action ι))
    (final : PlatformState ι Guest)
    (hguard : GuardedRun (step wiring) NoDma (PlatformState.initial thread cpu) actions)
    (hrun : runFrom (step wiring) (PlatformState.initial thread cpu) actions = some final)
    (hruns : RunsProgram core region i program
      (vcpuHistory wiring (PlatformState.initial thread cpu) actions)) :
    ∃ log after,
      log.map Prod.fst <+: program ∧
      log.map Prod.snd = completed core program (responses (.vcpu i)
        (vcpuHistory wiring (PlatformState.initial thread cpu) actions)) ∧
      ((responses (.vcpu i)
          (vcpuHistory wiring (PlatformState.initial thread cpu) actions)).length =
        (program.flatMap core.calls).length → log.map Prod.fst = program) ∧
      Replays windowCall (window mmioAddr.toNat cpu.memory.mem) log after ∧
      AgreeOn
        (fun cell => region cell ∧ ∀ access ∈ program.drop log.length, access.Spares (cell = ·))
        (window mmioAddr.toNat final.cpu.memory.mem) after := by
  obtain ⟨calls, reached, hseen, hagree⟩ := hruns.seenAlone wiring hguard hrun
  obtain ⟨log, after, later, hprogram, hanswers, hreplays, hrest, hparts⟩ :=
    hseen.joined (fun access hmem => core.emulates access (hruns.guest access hmem)) hruns.calls
  have hlength := congrArg List.length hanswers
  rw [List.length_map] at hlength
  refine ⟨log, after, ?_, hanswers, ?_, hreplays, ?_⟩
  · rw [hprogram]
    exact List.take_prefix _ _
  · intro hall
    rw [hprogram, length_joinedAnswers hall.ge, List.take_length]
  · have hlater := agreeOn_of_later hruns.guest hrest hparts
    intro cell hcell
    rw [hagree cell hcell.1, hlater cell (hlength ▸ hcell.2)]

end Programs

/-! ## The speed test -/

/-- `0xdeadbeef00000000 + i`. -/
def testSpeedWord (index : Nat) : BitVec 64 := 0xdeadbeef00000000 + BitVec.ofNat 64 index

/-- `mapped_dev_base[i] = 0xdeadbeef00000000 + i`. -/
def testSpeedStore (index : Nat) : MmioCall :=
  .write (BitVec.ofNat 64 (8 * index)) (testSpeedWord index) 8

/-- The stores of the loop of `main`, which has 100000 for `count`. -/
def testSpeedStores (count : Nat) : List MmioCall := (List.range count).map testSpeedStore

section TestSpeed

variable {count index : Nat}

theorem testSpeedOffset_toNat (hfits : 8 * index < mmioSize) :
    (BitVec.ofNat 64 (8 * index)).toNat = 8 * index := by
  have hsize : mmioSize = 0x6000000 := rfl
  rw [BitVec.toNat_ofNat]
  omega

theorem testSpeedStore_guest (hfits : 8 * index + 8 ≤ mmioSize) :
    GuestAccess (testSpeedStore index) := by
  have hoffset := testSpeedOffset_toNat (show 8 * index < mmioSize by omega)
  have hsize : (8 : BitVec 32).toNat = 8 := rfl
  constructor
  · exact .inr (.inr (.inr rfl))
  · simp only [testSpeedStore, MmioCall.shape, hoffset, hsize]
    omega
  · simp only [testSpeedStore, MmioCall.shape, hoffset]
    omega
  · simp only [testSpeedStore, MmioCall.shape, hoffset, hsize]
    exact hfits

theorem testSpeedStore_inRegion {region : Nat → Prop} (hfits : 8 * index < mmioSize) :
    (testSpeedStore index).InRegion region ↔
      ∀ cell, 8 * index ≤ cell → cell < 8 * index + 8 → region cell := by
  unfold MmioCall.InRegion RangeIn
  simp only [testSpeedStore, MmioCall.shape, testSpeedOffset_toNat hfits]
  rfl

theorem windowCall_testSpeedStore (hfits : 8 * index < mmioSize) (flat : ByteStore) :
    windowCall flat (testSpeedStore index) =
      some (writeBytes flat (8 * index) (leBytes 8 (testSpeedWord index).toNat), none) := by
  rw [testSpeedStore, windowCall, testSpeedOffset_toNat hfits]
  rfl

/-- The first stores are a row of doublewords. -/
theorem after_testSpeedStores {start after : ByteStore}
    {log : List (MmioCall × Option (BitVec 64))} (hfits : 8 * count ≤ mmioSize)
    (hlog : Replays windowCall start log after) (hcount : index ≤ count)
    (hprogram : log.map Prod.fst = (testSpeedStores count).take index) :
    after = writeRow 8 (fun i => leBytes 8 (testSpeedWord i).toNat) start index := by
  have hrow : Replays windowCall start
      ((List.range index).map fun i => (testSpeedStore i, none))
      (writeRow 8 (fun i => leBytes 8 (testSpeedWord i).toNat) start index) :=
    replays_writeRow (fun i hi flat => windowCall_testSpeedStore (by omega) flat) start
  have hinputs : log.map Prod.fst =
      ((List.range index).map fun i => (testSpeedStore i, (none : Option (BitVec 64)))).map
        Prod.fst := by
    rw [hprogram, testSpeedStores, ← List.map_take, List.take_range, Nat.min_eq_left hcount]
    simp [Function.comp_def]
  have hsame := hlog.prefix_of_inputs hrow (hinputs ▸ List.prefix_refl _)
  have hlength := congrArg List.length hinputs
  rw [List.length_map, List.length_map] at hlength
  obtain rfl := hsame.eq_of_length hlength
  exact hlog.unique hrow

/-- The later stores spare the cells of the first ones. -/
theorem spares_of_mem_drop {access : MmioCall} {cell : Nat} (hfits : 8 * count ≤ mmioSize)
    (hcell : cell < 8 * index) (hmem : access ∈ (testSpeedStores count).drop index) :
    access.Spares (cell = ·) := by
  obtain ⟨j, hj, rfl⟩ := List.mem_drop_iff_getElem.mp hmem
  simp only [testSpeedStores, List.length_map, List.length_range] at hj
  intro _
  simp only [testSpeedStores, List.getElem_map, List.getElem_range]
  rw [testSpeedStore_inRegion (by omega)]
  omega

variable {ι Guest : Type*} [DecidableEq ι] (wiring : Wiring Guest) (core : CoreSplit)

/-- `test_speed.c` on one vCPU of the build without DMA, while the others make calls of the core at
word offsets that write none of its doublewords: whatever the schedule, every doubleword whose
store is complete is in the window. -/
theorem testSpeed_stores (count : Nat) (hfits : 8 * count ≤ mmioSize) (i : ι)
    (thread : TcpThread Guest) (cpu : QemuCpu) (actions : List (Action ι))
    (final : PlatformState ι Guest)
    (hguard : GuardedRun (step wiring) NoDma (PlatformState.initial thread cpu) actions)
    (hrun : runFrom (step wiring) (PlatformState.initial thread cpu) actions = some final)
    (hcalls : invocations (.vcpu i)
      (vcpuHistory wiring (PlatformState.initial thread cpu) actions) <+:
        (testSpeedStores count).flatMap core.calls)
    (hothers : ∀ j, j ≠ i → ∀ call ∈ invocations (.vcpu j)
      (vcpuHistory wiring (PlatformState.initial thread cpu) actions),
        WordCall call ∧ call.Spares (· < 8 * count))
    (index : Nat) (hindex : index < (completed core (testSpeedStores count) (responses (.vcpu i)
      (vcpuHistory wiring (PlatformState.initial thread cpu) actions))).length) :
    readBytes (window mmioAddr.toNat final.cpu.memory.mem) (8 * index) 8 =
      leBytes 8 (testSpeedWord index).toNat := by
  have hstore : ∀ access ∈ testSpeedStores count, ∃ j, j < count ∧ testSpeedStore j = access := by
    intro access hmem
    obtain ⟨j, hj, rfl⟩ := List.mem_map.mp hmem
    exact ⟨j, List.mem_range.mp hj, rfl⟩
  have hruns : RunsProgram core (· < 8 * count) i (testSpeedStores count)
      (vcpuHistory wiring (PlatformState.initial thread cpu) actions) := {
    guest := by
      intro access hmem
      obtain ⟨j, hj, rfl⟩ := hstore access hmem
      exact testSpeedStore_guest (by omega)
    inside := by
      intro access hmem
      obtain ⟨j, hj, rfl⟩ := hstore access hmem
      rw [testSpeedStore_inRegion (by omega)]
      omega
    calls := hcalls
    others := hothers }
  obtain ⟨calls, reached, hseen, hagree⟩ := hruns.seenAlone wiring hguard hrun
  obtain ⟨log, after, later, hprogram, hanswers, hreplays, hrest, hparts⟩ :=
    hseen.joined (fun access hmem => core.emulates access (hruns.guest access hmem)) hruns.calls
  have hlater := agreeOn_of_later hruns.guest hrest hparts
  unfold completed at hindex
  rw [← hanswers, List.length_map] at hindex hprogram hlater
  have hcount : log.length ≤ count := by
    have hlength := congrArg List.length hprogram
    rw [List.length_map, List.length_take, testSpeedStores, List.length_map,
      List.length_range] at hlength
    omega
  have hbelow : 8 * index + 8 ≤ 8 * log.length := by omega
  -- The memory, then the calls seen alone, then the complete stores.
  rw [hagree.readBytes, hlater.readBytes, after_testSpeedStores hfits hreplays hcount hprogram]
  · exact readBytes_writeRow (fun _ => length_leBytes _ _) _ hindex
  · intro cell _ hcell access hmem
    exact spares_of_mem_drop hfits (by omega) hmem
  · intro cell _ hcell
    omega

end TestSpeed

/-! ## Two runs -/

/-- The accesses of `mmio.c`: it prints a doubleword and stores another one. -/
def mmioAccesses : List MmioCall := [.read 80 8, .write 0 0x12345678deadbeef 8]

/-- `mmio.c` on the first vCPU; the second one reads a word between the halves of the store. -/
def mmioRun : List (Action Bool) :=
  callSteps false (.read 80 4) ++ callSteps false (.read 84 4) ++
    callSteps false (.write 0 0xdeadbeef 4) ++ callSteps true (.read 4 4) ++
    callSteps false (.write 4 0x12345678 4)

theorem mmioRun_history :
    vcpuHistory demoWiring (PlatformState.initial idleThread zeroCpu) mmioRun =
      [.invoke (.vcpu false) (.read 80 4), .respond (.vcpu false) (some 0),
        .invoke (.vcpu false) (.read 84 4), .respond (.vcpu false) (some 0),
        .invoke (.vcpu false) (.write 0 0xdeadbeef 4), .respond (.vcpu false) none,
        .invoke (.vcpu true) (.read 4 4), .respond (.vcpu true) (some 0),
        .invoke (.vcpu false) (.write 4 0x12345678 4), .respond (.vcpu false) none] := by
  rfl

theorem mmioRun_noDma : GuardedRun (step demoWiring) NoDma
    (PlatformState.initial idleThread zeroCpu) mmioRun := by
  apply guardedRun_of_forall_mem
  simp [mmioRun, callSteps, NoDma]

theorem mmioAccesses_guest {access : MmioCall} (hmem : access ∈ mmioAccesses) :
    GuestAccess access ∧ access.InRegion (· < 88) := by
  have hcases : access = .read 80 8 ∨ access = .write 0 0x12345678deadbeef 8 := by
    simpa [mmioAccesses] using hmem
  rcases hcases with rfl | rfl
  · exact ⟨⟨by decide, by decide, by decide, by decide⟩, fun cell _ hbelow => hbelow⟩
  · refine ⟨⟨by decide, by decide, by decide, by decide⟩, fun cell _ hbelow => ?_⟩
    exact hbelow.trans (by decide)

/-- In both runs the other vCPU makes one call, which reads. -/
theorem reads_of_history {history : List (ObjectEvent (Requester Bool) MmioCall
      (Option (BitVec 64)))} (hother : invocations (.vcpu true) history = [.read 4 4])
    (region : Nat → Prop) (j : Bool) (hj : j ≠ false) (call : MmioCall)
    (hmem : call ∈ invocations (.vcpu j) history) : WordCall call ∧ call.Spares region := by
  obtain rfl : j = true := by simpa using hj
  rw [hother] at hmem
  obtain rfl : call = .read 4 4 := List.mem_singleton.mp hmem
  refine ⟨⟨⟨by decide, by decide, by decide⟩, by decide⟩, ?_⟩
  intro hwrite
  cases hwrite

theorem mmioRun_runsProgram : RunsProgram adjustedSplit (· < 88) false mmioAccesses
    (vcpuHistory demoWiring (PlatformState.initial idleThread zeroCpu) mmioRun) := by
  rw [mmioRun_history]
  constructor
  · exact fun access hmem => (mmioAccesses_guest hmem).1
  · exact fun access hmem => (mmioAccesses_guest hmem).2
  · exact ⟨[], by decide⟩
  · exact reads_of_history rfl _

/-- `mmio.c` prints what the doubleword was and leaves the one that it stores. -/
theorem guestProgram_seesWhole_mmioRun :
    ∃ s log after, runFrom (step demoWiring) (PlatformState.initial idleThread zeroCpu) mmioRun =
        some s ∧
      log = [(.read 80 8, some 0), (.write 0 0x12345678deadbeef 8, none)] ∧
      Replays windowCall (window mmioAddr.toNat zeroCpu.memory.mem) log after ∧
      AgreeOn (· < 88) (window mmioAddr.toNat s.cpu.memory.mem) after := by
  obtain ⟨s, hrun⟩ : ∃ s, runFrom (step demoWiring)
      (PlatformState.initial idleThread zeroCpu) mmioRun = some s := ⟨_, rfl⟩
  obtain ⟨log, after, -, hanswers, hall, hreplays, hagree⟩ :=
    guestProgram_seesWhole demoWiring adjustedSplit (· < 88) false mmioAccesses idleThread zeroCpu
      mmioRun s mmioRun_noDma hrun mmioRun_runsProgram
  rw [mmioRun_history] at hanswers hall
  have hprogram : log.map Prod.fst = mmioAccesses := hall (by decide)
  obtain rfl : log = [(.read 80 8, some 0), (.write 0 0x12345678deadbeef 8, none)] :=
    (List.zip_of_prod hprogram hanswers).trans (by decide)
  refine ⟨s, _, after, hrun, rfl, hreplays, fun cell hcell => hagree cell ⟨hcell, ?_⟩⟩
  exact fun access hmem => absurd hmem (List.not_mem_nil)

/-- `test_speed.c` with two stores, the second of which is half done; the second vCPU reads a word
between the halves of the first one. -/
def speedRun : List (Action Bool) :=
  callSteps false (.write 0 0 4) ++ callSteps true (.read 4 4) ++
    callSteps false (.write 4 0xdeadbeef 4) ++ callSteps false (.write 8 1 4)

theorem speedRun_history :
    vcpuHistory demoWiring (PlatformState.initial idleThread zeroCpu) speedRun =
      [.invoke (.vcpu false) (.write 0 0 4), .respond (.vcpu false) none,
        .invoke (.vcpu true) (.read 4 4), .respond (.vcpu true) (some 0),
        .invoke (.vcpu false) (.write 4 0xdeadbeef 4), .respond (.vcpu false) none,
        .invoke (.vcpu false) (.write 8 1 4), .respond (.vcpu false) none] := by
  rfl

theorem speedRun_noDma : GuardedRun (step demoWiring) NoDma
    (PlatformState.initial idleThread zeroCpu) speedRun := by
  apply guardedRun_of_forall_mem
  simp [speedRun, callSteps, NoDma]

/-- The first store is in the window, and of the second one its first half. -/
theorem testSpeed_stores_speedRun :
    ∃ s, runFrom (step demoWiring) (PlatformState.initial idleThread zeroCpu) speedRun = some s ∧
      readBytes (window mmioAddr.toNat s.cpu.memory.mem) 0 8 = leBytes 8 0xdeadbeef00000000 ∧
      readBytes (window mmioAddr.toNat s.cpu.memory.mem) 8 8 = leBytes 8 1 := by
  have hcalls : invocations (.vcpu false)
      (vcpuHistory demoWiring (PlatformState.initial idleThread zeroCpu) speedRun) <+:
        (testSpeedStores 2).flatMap adjustedCalls := by
    rw [speedRun_history]
    exact ⟨[.write 12 0xdeadbeef 4], by decide⟩
  refine ⟨_, rfl, ?_, by decide⟩
  have hstores := testSpeed_stores demoWiring adjustedSplit 2 (by decide) false idleThread zeroCpu
    speedRun _ speedRun_noDma rfl hcalls
    (by rw [speedRun_history]; exact reads_of_history rfl _) 0
    (by rw [speedRun_history]; decide)
  exact hstores.trans (by decide)

end Platform
end AislabVP
