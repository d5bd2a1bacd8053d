import AislabVP.SystemC.QemuCpu

/-!
# The accesses that a message causes

A message that `vp_wait` delivers to `thread_process` reaches three objects by computed
positions: the table of type names, which the debug build prints from, the local `data`
of `tlm_read` and `tlm_write`, and the array `mem` of the target.  `dispatchAccesses`
lists these accesses, branch by branch.

The checks of the target keep the last two inside their objects for every message.
Nothing checks the first one, so the debug build stays in bounds if and only if the
type of the message is one of the seven of the table (`dispatchAccesses_inBounds_iff`).
-/

namespace AislabVP
namespace SystemC

open Foundation Vpipc

/-- `VP_Type_str`. -/
def vpTypeStr : List String :=
  ["VP_WRITE", "VP_READ", "VP_RAISE_IRQ", "VP_WRITE_RESP", "VP_READ_RESP", "VP_RAISE_IRQ_RESP",
    "VP_ERROR"]

/-- The objects that are accessed at a computed position. -/
inductive AccessedObject where
  | vpTypeStr
  /-- The `uint32_t data` of `tlm_read` and `tlm_write`. -/
  | localData
  /-- `int mem[SIZE]`, in bytes. -/
  | mem
  deriving DecidableEq, Repr

/-- The number of entries or bytes of the object. -/
def AccessedObject.size : AccessedObject → Nat
  | .vpTypeStr => SystemC.vpTypeStr.length
  | .localData => 4
  | .mem => 4 * memorySize

/-- Consecutive entries or bytes of an object. -/
structure Access where
  target : AccessedObject
  start : Nat
  count : Nat
  deriving DecidableEq, Repr

/-- The access stays inside its object. -/
def Access.InBounds (access : Access) : Prop :=
  access.start + access.count ≤ access.target.size

instance (access : Access) : Decidable access.InBounds :=
  inferInstanceAs (Decidable (_ ≤ _))

/-- The access is to the byte `cell` of `mem`. -/
def Access.TouchesMem (access : Access) (cell : Nat) : Prop :=
  access.target = .mem ∧ access.start ≤ cell ∧ cell < access.start + access.count

/-! ## What the code accesses -/

/-- The `memcpy` of `Memory::b_transport`. -/
def bTransportAccesses (trans : TlmPayload) : List Access :=
  let adr := trans.address.toNat / 4
  let len := trans.dataLength.toNat
  if adr ≥ memorySize then []
  else if trans.byteEnable.isSome then []
  else if len > 4 ∨ trans.streamingWidth.toNat < len then []
  else
    match trans.command with
    | .read | .write =>
        [{ target := .localData, start := 0, count := len },
          { target := .mem, start := 4 * adr, count := len }]
    | .ignore => []

/-- The two targets of the Makefile; `debug` is the default and defines `DEBUG`. -/
inductive BuildTarget where
  | debug
  | release
  deriving DecidableEq, Repr

/-- The accesses of one turn of `thread_process`. -/
def dispatchAccesses (build : BuildTarget) (vpt : VpTransfer) : List Access :=
  -- `VP_Type_str[vpt[0].data.type]`, before the `switch`.
  (match build with
    | .debug => [{ target := .vpTypeStr, start := vpt.data.type.toNat, count := 1 }]
    | .release => []) ++
  match VpType.ofCode vpt.data.type with
  | some .vpWrite => bTransportAccesses (writeTransaction vpt.data)
  | some .vpRead => bTransportAccesses (readTransaction vpt.data)
  | _ => []

/-! ## The list is complete -/

/-- A refused transaction accesses neither object. -/
theorem bTransportAccesses_of_not_accepts {trans : TlmPayload} (h : ¬Accepts trans) :
    bTransportAccesses trans = [] := by
  unfold bTransportAccesses
  simp only
  split
  · rfl
  · split
    · rfl
    · split
      · rfl
      · rename_i hadr hbyte hburst
        refine absurd ⟨by omega, ?_, by omega, by omega⟩ h
        simpa using hbyte

theorem bTransportAccesses_of_accepts {trans : TlmPayload} (h : Accepts trans) :
    bTransportAccesses trans =
      match trans.command with
      | .read | .write =>
          [{ target := .localData, start := 0, count := trans.dataLength.toNat },
            { target := .mem, start := 4 * (trans.address.toNat / 4),
              count := trans.dataLength.toNat }]
      | .ignore => [] := by
  rcases h with ⟨hadr, hbyte, hlen, hwid⟩
  have hburst : ¬(trans.dataLength.toNat > 4 ∨
      trans.streamingWidth.toNat < trans.dataLength.toNat) := by omega
  simp only [bTransportAccesses, ge_iff_le, Nat.not_le.mpr hadr, if_false, hbyte,
    Option.isSome_none, Bool.false_eq_true, hburst]

/-- The target changes only bytes that it accesses. -/
theorem bTransport_frame (memory : Memory) (trans : TlmPayload) {cell : Nat}
    (hcell : ∀ access ∈ bTransportAccesses trans, ¬access.TouchesMem cell) :
    (memory.bTransport trans).1.mem cell = memory.mem cell := by
  by_cases haccepts : Accepts trans
  · rw [bTransportAccesses_of_accepts haccepts] at hcell
    rw [bTransport_of_accepts memory haccepts]
    cases hcommand : trans.command with
    | read => rfl
    | ignore => rfl
    | write =>
        simp only [hcommand, List.forall_mem_cons] at hcell
        refine writeBytes_outside memory.mem _ _ fun hinside => hcell.2.1 ⟨rfl, hinside.1, ?_⟩
        have hshort := List.length_take_le trans.dataLength.toNat trans.data
        show cell < 4 * (trans.address.toNat / 4) + trans.dataLength.toNat
        omega
  · rw [(bTransport_of_not_accepts memory haccepts).1]

/-- What the target answers depends only on bytes that it accesses. -/
theorem bTransport_reads (memory other : Memory) (trans : TlmPayload)
    (hagree : ∀ access ∈ bTransportAccesses trans, ∀ cell, access.TouchesMem cell →
      memory.mem cell = other.mem cell) :
    (memory.bTransport trans).2 = (other.bTransport trans).2 := by
  by_cases haccepts : Accepts trans
  · rw [bTransportAccesses_of_accepts haccepts] at hagree
    rw [bTransport_of_accepts memory haccepts, bTransport_of_accepts other haccepts]
    cases hcommand : trans.command with
    | write => rfl
    | ignore => rfl
    | read =>
        simp only [hcommand, List.forall_mem_cons] at hagree
        have hbytes : readBytes memory.mem (4 * (trans.address.toNat / 4))
              trans.dataLength.toNat =
            readBytes other.mem (4 * (trans.address.toNat / 4)) trans.dataLength.toNat := by
          unfold readBytes
          refine List.map_congr_left fun index hindex => ?_
          have hbelow := List.mem_range.mp hindex
          exact hagree.2.1 _ ⟨rfl, Nat.le_add_right _ _, Nat.add_lt_add_left hbelow _⟩
        simp only [hbytes]
  · exact bTransport_refused_answer memory other haccepts

/-- The local object has the size that is meant here. -/
theorem length_localData (transData : VpTransferData) :
    (readTransaction transData).data.length = AccessedObject.localData.size ∧
      (writeTransaction transData).data.length = AccessedObject.localData.size :=
  ⟨length_leBytes 4 _, length_leBytes 4 _⟩

/-! ## Bounds -/

/-- The target stays in bounds for every transaction. -/
theorem bTransportAccesses_inBounds (trans : TlmPayload) :
    ∀ access ∈ bTransportAccesses trans, access.InBounds := by
  by_cases haccepts : Accepts trans
  · rw [bTransportAccesses_of_accepts haccepts]
    obtain ⟨hadr, -, hlen, -⟩ := haccepts
    have hlocal : Access.InBounds
        { target := .localData, start := 0, count := trans.dataLength.toNat } := by
      show 0 + trans.dataLength.toNat ≤ 4
      omega
    have hmem : Access.InBounds
        { target := .mem, start := 4 * (trans.address.toNat / 4),
          count := trans.dataLength.toNat } := by
      show 4 * (trans.address.toNat / 4) + trans.dataLength.toNat ≤ 4 * memorySize
      omega
    cases trans.command with
    | read => simp [hlocal, hmem]
    | write => simp [hlocal, hmem]
    | ignore => exact nofun
  · rw [bTransportAccesses_of_not_accepts haccepts]
    exact nofun

/-- The `switch` stays in bounds for every message. -/
theorem switchAccesses_inBounds (vpt : VpTransfer) :
    ∀ access ∈ dispatchAccesses .release vpt, access.InBounds := by
  unfold dispatchAccesses
  simp only [List.nil_append]
  split
  · exact bTransportAccesses_inBounds _
  · exact bTransportAccesses_inBounds _
  · exact nofun

/-- A message changes no byte behind the array `mem`. -/
theorem dispatch_outside_mem (cpu : QemuCpu) (vpt : VpTransfer) {cell : Nat}
    (hcell : AccessedObject.mem.size ≤ cell) :
    (cpu.dispatch vpt).1.memory.mem cell = cpu.memory.mem cell := by
  have hframe : ∀ trans, (cpu.memory.bTransport trans).1.mem cell = cpu.memory.mem cell := by
    intro trans
    refine bTransport_frame cpu.memory trans fun access haccess htouches => ?_
    obtain ⟨htarget, -, hbelow⟩ := htouches
    have hbounds := bTransportAccesses_inBounds trans access haccess
    unfold Access.InBounds at hbounds
    rw [htarget] at hbounds
    omega
  unfold QemuCpu.dispatch
  split
  · unfold tlmWrite
    by_cases herror : (cpu.memory.bTransport (writeTransaction vpt.data)).2.isResponseError = true
    · simp only [if_pos herror]
      exact hframe _
    · simp only [if_neg herror]
      exact hframe _
  · unfold tlmRead
    by_cases herror : (cpu.memory.bTransport (readTransaction vpt.data)).2.isResponseError = true
    · simp only [if_pos herror]
      exact hframe _
    · simp only [if_neg herror]
      exact hframe _
  · rfl

/-- In the debug build a message causes accesses in bounds only if and only if its type
is below the seven entries of `VP_Type_str`. -/
theorem dispatchAccesses_inBounds_iff (vpt : VpTransfer) :
    (∀ access ∈ dispatchAccesses .debug vpt, access.InBounds) ↔
      vpt.data.type.toNat < vpTypeStr.length := by
  have hsplit : dispatchAccesses .debug vpt =
      { target := .vpTypeStr, start := vpt.data.type.toNat, count := 1 } ::
        dispatchAccesses .release vpt := rfl
  rw [hsplit, List.forall_mem_cons]
  constructor
  · rintro ⟨hindex, -⟩
    exact hindex
  · intro hindex
    exact ⟨hindex, switchAccesses_inBounds vpt⟩

/-- A message of the first type that is not in the table. -/
def unknownTypeMessage : VpTransferData where
  type := 7
  length := 0
  addr := 0
  data := 0

/-- `vp_wait` delivers the message, and the debug build reads the eighth of seven
entries. -/
theorem unknown_type_reads_behind_table :
    (vpWait .systemC { type := .client, epollFd := 3, sockFd := 4, serverFd := -1 }
        (some [EpollEvent.input 4 (.piece (Piece.whole unknownTypeMessage))])).vpt =
      [{ sockFd := 4, data := unknownTypeMessage }] ∧
    dispatchAccesses .debug { sockFd := 4, data := unknownTypeMessage } =
      [{ target := .vpTypeStr, start := 7, count := 1 }] ∧
    ¬∀ access ∈ dispatchAccesses .debug { sockFd := 4, data := unknownTypeMessage },
      access.InBounds :=
  ⟨rfl, rfl, by decide⟩

end SystemC
end AislabVP
