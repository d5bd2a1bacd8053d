import AislabVP.Qemu.MmioBus
import AislabVP.SystemC.Dispatcher

/-!
# MMIO end to end

A guest access of the device window passes four layers: the region callbacks
add the window base, the message carries it to `thread_process`, which makes a
32-bit transaction of it, and the target divides its address by four.  The
module composes the layers for a connected client and whole messages and
compares the result with a flat byte array over the window.

The division drops the position of an access inside its word, so the window is
a byte-addressed memory for exactly those patterns of accesses in which every
offset is a multiple of four (`byteAddressed_iff_word_offsets`).  On any other
pattern some content and some values tell the difference.
-/

namespace AislabVP
namespace Platform

open Foundation Vpipc Qemu SystemC

/-- `vp_b_transfer` with `thread_process` on the other side, every message
delivered whole: `vp_wait` of the client takes the request, the dispatcher
answers it, and `recv` stores the image of the response.  `none` is a request
that gets no response. -/
def vpBTransfer (client : VpIpcModule) (cpu : QemuCpu) (request : VpTransferData) :
    QemuCpu × Option VpTransferData :=
  let event := EpollEvent.input client.sockFd (.piece (Piece.whole request))
  match (vpWait .systemC client (some [event])).vpt with
  | [] => (cpu, none)
  | vpt :: _ =>
      match cpu.dispatch vpt with
      | (next, .ok resp) => (next, some (VpTransferData.ofImage resp.data.image))
      | (next, .error _) => (next, none)

/-! ## Accesses of the window -/

/-- One call of the region callbacks. -/
inductive MmioCall where
  | read (offset : BitVec 64) (size : BitVec 32)
  | write (offset value : BitVec 64) (size : BitVec 32)
  deriving DecidableEq, Repr

/-- A call without the value it writes. -/
structure AccessShape where
  isWrite : Bool
  offset : BitVec 64
  size : BitVec 32
  deriving DecidableEq, Repr

/-- The shape of a call. -/
def MmioCall.shape : MmioCall → AccessShape
  | .read offset size => { isWrite := false, offset := offset, size := size }
  | .write offset _ size => { isWrite := true, offset := offset, size := size }

/-- What QEMU's core guarantees of a call. -/
structure CoreAccess (shape : AccessShape) : Prop where
  size : shape.size.toNat = 1 ∨ shape.size.toNat = 2 ∨ shape.size.toNat = 4
  aligned : shape.offset.toNat % shape.size.toNat = 0
  fits : shape.offset.toNat + shape.size.toNat ≤ mmioSize

/-- A sequence of calls behaves like the byte array `flat`: every read returns
its bytes, and every write changes only the addressed bytes of the target. -/
def ByteAddressed (server client : VpIpcModule) :
    QemuCpu → ByteStore → List MmioCall → Prop
  | _, _, [] => True
  | cpu, flat, .read offset size :: rest =>
      ∃ next value,
        mmioBusRead server (vpBTransfer client) cpu offset size = (next, some value) ∧
          value.toNat = leValue (readBytes flat offset.toNat size.toNat) ∧
          ByteAddressed server client next flat rest
  | cpu, flat, .write offset value size :: rest =>
      ∃ next,
        mmioBusWrite server (vpBTransfer client) cpu offset value size = (next, some ()) ∧
          (∀ cell, ¬(mmioAddr.toNat + offset.toNat ≤ cell ∧
              cell < mmioAddr.toNat + offset.toNat + size.toNat) →
            next.memory.mem cell = cpu.memory.mem cell) ∧
          ByteAddressed server client next
            (writeBytes flat offset.toNat (leBytes size.toNat value.toNat)) rest

section EndToEnd

variable {server client : VpIpcModule}

/-! ## One call -/

/-- The transfer is one turn of the dispatcher. -/
theorem vpBTransfer_of_dispatch (htype : client.type = .client) {cpu next : QemuCpu}
    {request : VpTransferData} {resp : VpTransfer}
    (hdispatch : cpu.dispatch { sockFd := client.sockFd, data := request } =
      (next, .ok resp)) :
    vpBTransfer client cpu request = (next, some resp.data) := by
  simp only [vpBTransfer, vpWait_client_whole .systemC htype, hdispatch, ofImage_image]

theorem mmioBusRead_of_dispatch (hconnected : clientIsConnect server = true)
    (htype : client.type = .client) {cpu next : QemuCpu} {offset : BitVec 64}
    {size : BitVec 32} {resp : VpTransfer}
    (hdispatch : cpu.dispatch { sockFd := client.sockFd, data := readRequest offset size } =
      (next, .ok resp)) :
    mmioBusRead server (vpBTransfer client) cpu offset size = (next, some resp.data.data) := by
  rw [mmioBusRead, if_pos hconnected, vpBTransfer_of_dispatch htype hdispatch]
  rfl

theorem mmioBusWrite_of_dispatch (hconnected : clientIsConnect server = true)
    (htype : client.type = .client) {cpu next : QemuCpu} {offset value : BitVec 64}
    {size : BitVec 32} {resp : VpTransfer}
    (hdispatch : cpu.dispatch
      { sockFd := client.sockFd, data := writeRequest offset value size } = (next, .ok resp)) :
    mmioBusWrite server (vpBTransfer client) cpu offset value size = (next, some ()) := by
  rw [mmioBusWrite, if_pos hconnected, vpBTransfer_of_dispatch htype hdispatch]
  rfl

/-- The address, the length and the position in the target of a core access.
`4 * (offset / 4)` is the start of the word that holds the offset. -/
theorem position_of_core {offset : BitVec 64} {size : BitVec 32} {isWrite : Bool}
    (hcore : CoreAccess { isWrite := isWrite, offset := offset, size := size }) :
    4 * ((mmioAddr + offset).toNat / 4) = mmioAddr.toNat + 4 * (offset.toNat / 4) ∧
      ((size.setWidth 64).setWidth 32).toNat = size.toNat ∧
      (mmioAddr + offset).toNat / 4 < memorySize ∧ size.toNat ≤ 4 := by
  have hsize : size.toNat = 1 ∨ size.toNat = 2 ∨ size.toNat = 4 := hcore.size
  have hfits : offset.toNat + size.toNat ≤ 0x6000000 := hcore.fits
  have hbase : mmioAddr.toNat = 0x6000000 := rfl
  have haddr : (mmioAddr + offset).toNat = 0x6000000 + offset.toNat := by
    rw [BitVec.toNat_add, hbase]
    omega
  have hlength : ((size.setWidth 64).setWidth 32).toNat = size.toNat := by
    rw [BitVec.toNat_setWidth, BitVec.toNat_setWidth]
    omega
  refine ⟨by omega, hlength, ?_, by omega⟩
  unfold memorySize
  omega

/-- A read returns the first bytes of the word that holds its offset. -/
theorem mmioBusRead_core (hconnected : clientIsConnect server = true)
    (htype : client.type = .client) (cpu : QemuCpu) {offset : BitVec 64} {size : BitVec 32}
    (hcore : CoreAccess { isWrite := false, offset := offset, size := size }) :
    ∃ next value,
      mmioBusRead server (vpBTransfer client) cpu offset size = (next, some value) ∧
        next.memory = cpu.memory ∧
        value.toNat = leValue (readBytes (window mmioAddr.toNat cpu.memory.mem)
          (4 * (offset.toNat / 4)) size.toNat) := by
  obtain ⟨hposition, hlength, hadr, hsmall⟩ := position_of_core hcore
  have haccepts : Accepts (readTransaction (readRequest offset size)) :=
    (accepts_setupTransaction_iff _ _ _).mpr ⟨hadr, hlength.trans_le hsmall⟩
  have hdispatch := dispatch_read cpu
    { sockFd := client.sockFd, data := readRequest offset size } rfl haccepts
  let bytes := readBytes cpu.memory.mem (mmioAddr.toNat + 4 * (offset.toNat / 4)) size.toNat
  have hbytes : readBytes cpu.memory.mem (4 * ((mmioAddr + offset).toNat / 4))
      ((size.setWidth 64).setWidth 32).toNat = bytes := by rw [hposition, hlength]
  refine ⟨_, _, mmioBusRead_of_dispatch hconnected htype hdispatch, rfl, ?_⟩
  show (BitVec.ofNat 64 (leValue (readBytes cpu.memory.mem _ _))).toNat = _
  rw [readBytes_window, BitVec.toNat_ofNat]
  -- Four bytes stay below `2 ^ 64`.
  have hbound : leValue bytes < 2 ^ 64 :=
    calc
      leValue bytes < 256 ^ bytes.length := leValue_lt bytes
      _ = 256 ^ size.toNat := by rw [length_readBytes]
      _ ≤ 256 ^ 4 := Nat.pow_le_pow_right (by norm_num) hsmall
      _ < 2 ^ 64 := by norm_num
  exact (congrArg (fun read => leValue read % 2 ^ 64) hbytes).trans (Nat.mod_eq_of_lt hbound)

/-- A write lands on the first bytes of the word that holds its offset. -/
theorem mmioBusWrite_core (hconnected : clientIsConnect server = true)
    (htype : client.type = .client) (cpu : QemuCpu) {offset : BitVec 64} (value : BitVec 64)
    {size : BitVec 32}
    (hcore : CoreAccess { isWrite := true, offset := offset, size := size }) :
    ∃ next,
      mmioBusWrite server (vpBTransfer client) cpu offset value size = (next, some ()) ∧
        next.memory.mem = writeBytes cpu.memory.mem
          (mmioAddr.toNat + 4 * (offset.toNat / 4)) (leBytes size.toNat value.toNat) := by
  obtain ⟨hposition, hlength, hadr, hsmall⟩ := position_of_core hcore
  have haccepts : Accepts (writeTransaction (writeRequest offset value size)) :=
    (accepts_setupTransaction_iff _ _ _).mpr ⟨hadr, hlength.trans_le hsmall⟩
  have hdispatch := dispatch_write cpu
    { sockFd := client.sockFd, data := writeRequest offset value size } rfl haccepts
  refine ⟨_, mmioBusWrite_of_dispatch hconnected htype hdispatch, ?_⟩
  show writeBytes cpu.memory.mem (4 * ((mmioAddr + offset).toNat / 4))
    (leBytes ((size.setWidth 64).setWidth 32).toNat value.toNat) = _
  rw [hposition, hlength]

/-! ## Sequences of calls -/

theorem word_offset {offset : Nat} (haligned : offset % 4 = 0) : 4 * (offset / 4) = offset := by
  omega

/-- Accesses at word offsets see the flat byte array, by induction on the calls;
the invariant is that the array is the window of the target's memory. -/
theorem byteAddressed_of_word_offsets (hconnected : clientIsConnect server = true)
    (htype : client.type = .client) (cpu : QemuCpu) (calls : List MmioCall)
    (hcore : ∀ call ∈ calls, CoreAccess call.shape)
    (haligned : ∀ call ∈ calls, call.shape.offset.toNat % 4 = 0) :
    ByteAddressed server client cpu (window mmioAddr.toNat cpu.memory.mem) calls := by
  induction calls generalizing cpu with
  | nil => trivial
  | cons call rest ih =>
      rw [List.forall_mem_cons] at hcore haligned
      rcases hcore with ⟨hcall, hrest⟩
      rcases haligned with ⟨hoffset, halignedRest⟩
      cases call with
      | read offset size =>
          obtain ⟨next, value, hread, hkeeps, hvalue⟩ :=
            mmioBusRead_core hconnected htype cpu hcall
          have hword : 4 * (offset.toNat / 4) = offset.toNat := word_offset hoffset
          rw [hword] at hvalue
          refine ⟨next, value, hread, hvalue, ?_⟩
          rw [← hkeeps]
          exact ih next hrest halignedRest
      | write offset value size =>
          obtain ⟨next, hwrite, hmem⟩ := mmioBusWrite_core hconnected htype cpu value hcall
          have hword : 4 * (offset.toNat / 4) = offset.toNat := word_offset hoffset
          rw [hword] at hmem
          refine ⟨next, hwrite, ?_, ?_⟩
          · intro cell hcell
            rw [hmem, writeBytes_outside]
            rw [length_leBytes]
            exact hcell
          · rw [← window_writeBytes, ← hmem]
            exact ih next hrest halignedRest

/-- A content in which every byte tells its position in its word. -/
def lanes : ByteStore := fun cell => BitVec.ofNat 8 (cell % 4)

/-- The call of a shape that leaves `lanes` as it is. -/
def laneCall (shape : AccessShape) : MmioCall :=
  if shape.isWrite then
    .write shape.offset
      (BitVec.ofNat 64 (leValue (readBytes lanes shape.offset.toNat shape.size.toNat)))
      shape.size
  else .read shape.offset shape.size

theorem shape_laneCall (shape : AccessShape) : (laneCall shape).shape = shape := by
  rcases shape with ⟨isWrite, offset, size⟩
  cases isWrite <;> rfl

theorem lanes_eq_zero_iff (cell : Nat) : lanes cell = 0 ↔ cell % 4 = 0 := by
  unfold lanes
  rw [← BitVec.toNat_inj, BitVec.toNat_ofNat]
  show cell % 4 % 256 = 0 ↔ cell % 4 = 0
  omega

/-- The head of `lanes` read at an offset, when at least one byte is read. -/
theorem readBytes_lanes (offset : Nat) {count : Nat} (hcount : 0 < count) :
    ∃ rest, readBytes lanes offset count = lanes offset :: rest := by
  obtain ⟨count, rfl⟩ : ∃ rest, count = rest + 1 := ⟨count - 1, by omega⟩
  exact ⟨_, by rw [readBytes, List.range_succ_eq_map]; rfl⟩

/-- The bytes of an access are those at the front of its word only at a word
offset. -/
theorem word_offset_of_readBytes_lanes {offset count : Nat} (hcount : 0 < count)
    (hbytes : readBytes lanes (4 * (offset / 4)) count = readBytes lanes offset count) :
    offset % 4 = 0 := by
  obtain ⟨word, hword⟩ := readBytes_lanes (4 * (offset / 4)) hcount
  obtain ⟨own, hown⟩ := readBytes_lanes offset hcount
  rw [hword, hown] at hbytes
  have hhead := (List.cons.inj hbytes).1
  rw [← lanes_eq_zero_iff, ← hhead, lanes_eq_zero_iff]
  omega

/-- Bytes of the lanes written to the front of their word leave the first byte of
the word as it is only at a word offset. -/
theorem word_offset_of_writeBytes_lanes {store : ByteStore} {base offset count : Nat}
    (hlanes : window base store = lanes) (hcount : 0 < count)
    (hkept : ¬(base + offset ≤ base + 4 * (offset / 4)) →
      writeBytes store (base + 4 * (offset / 4)) (readBytes lanes offset count)
        (base + 4 * (offset / 4)) = store (base + 4 * (offset / 4))) :
    offset % 4 = 0 := by
  by_contra hinside
  have hfirst : 0 < (readBytes lanes offset count).length := by
    rw [length_readBytes]
    exact hcount
  have hwritten := writeBytes_inside store (base + 4 * (offset / 4)) _ hfirst
  rw [Nat.add_zero, hkept (by omega), getElem_readBytes, Nat.add_zero] at hwritten
  have hcontent : store (base + 4 * (offset / 4)) = lanes (4 * (offset / 4)) :=
    congrFun hlanes (4 * (offset / 4))
  have hzero : lanes (4 * (offset / 4)) = 0 := (lanes_eq_zero_iff _).mpr (by omega)
  exact hinside ((lanes_eq_zero_iff _).mp (hwritten.symm.trans (hcontent.trans hzero)))

/-- On the lane content an access that goes right is at a word offset, and leaves the content
as it was: a read elsewhere returns byte zero of its word first, and a write puts its first
byte there. -/
theorem word_offset_of_byteAddressed_lane (hconnected : clientIsConnect server = true)
    (htype : client.type = .client) (cpu : QemuCpu)
    (hlanes : window mmioAddr.toNat cpu.memory.mem = lanes) {shape : AccessShape}
    (hshape : CoreAccess shape) {calls : List MmioCall}
    (hholds : ByteAddressed server client cpu lanes (laneCall shape :: calls)) :
    shape.offset.toNat % 4 = 0 ∧
      ∃ next : QemuCpu, window mmioAddr.toNat next.memory.mem = lanes ∧
        ByteAddressed server client next lanes calls := by
  rcases shape with ⟨isWrite, offset, size⟩
  have hpositive : 0 < size.toNat := by
    have hsize : size.toNat = 1 ∨ size.toNat = 2 ∨ size.toNat = 4 := hshape.size
    omega
  cases isWrite with
  | false =>
      rcases hholds with ⟨next, value, hread, hvalue, hrestHolds⟩
      obtain ⟨next', value', hread', hkeeps, hvalue'⟩ :=
        mmioBusRead_core hconnected htype cpu hshape
      obtain ⟨rfl, hsame⟩ := Prod.mk.inj (hread.symm.trans hread')
      obtain rfl := Option.some.inj hsame
      rw [hlanes] at hvalue'
      have hoffset := word_offset_of_readBytes_lanes hpositive
        (eq_of_leValue_eq (by simp) (hvalue'.symm.trans hvalue))
      refine ⟨hoffset, next, ?_, hrestHolds⟩
      rw [hkeeps, hlanes]
  | true =>
      rcases hholds with ⟨next, hwrite, hframe, hrestHolds⟩
      obtain ⟨next', hwrite', hmem⟩ :=
        mmioBusWrite_core hconnected htype cpu _ hshape
      obtain ⟨rfl, -⟩ := Prod.mk.inj (hwrite.symm.trans hwrite')
      have hsmall := (position_of_core hshape).2.2.2
      have hvalue : leBytes size.toNat (BitVec.ofNat 64
          (leValue (readBytes lanes offset.toNat size.toNat))).toNat =
            readBytes lanes offset.toNat size.toNat := by
        have hword := leBytes_ofNat_leValue
          (readBytes lanes offset.toNat size.toNat) (by rw [length_readBytes]; omega)
        rwa [length_readBytes] at hword
      rw [hvalue] at hmem
      have hoffset : offset.toNat % 4 = 0 := by
        apply word_offset_of_writeBytes_lanes hlanes hpositive
        intro hbelow
        rw [← hmem]
        exact hframe _ fun hcell => hbelow hcell.1
      -- The written bytes are the lanes themselves.
      refine ⟨hoffset, next, ?_, ?_⟩
      · rw [hmem, word_offset hoffset, window_writeBytes, hlanes, writeBytes_readBytes]
      · rw [hvalue, writeBytes_readBytes] at hrestHolds
        exact hrestHolds

/-- So all accesses of a sequence that goes right are at word offsets. -/
theorem word_offsets_of_byteAddressed_lanes (hconnected : clientIsConnect server = true)
    (htype : client.type = .client) (cpu : QemuCpu)
    (hlanes : window mmioAddr.toNat cpu.memory.mem = lanes) (shapes : List AccessShape)
    (hcore : ∀ shape ∈ shapes, CoreAccess shape)
    (hholds : ByteAddressed server client cpu lanes (shapes.map laneCall)) :
    ∀ shape ∈ shapes, shape.offset.toNat % 4 = 0 := by
  induction shapes generalizing cpu with
  | nil => simp
  | cons shape rest ih =>
      rw [List.forall_mem_cons] at hcore ⊢
      obtain ⟨hoffset, next, hnext, hrestHolds⟩ :=
        word_offset_of_byteAddressed_lane hconnected htype cpu hlanes hcore.1 hholds
      exact ⟨hoffset, ih next hnext hcore.2 hrestHolds⟩

/-- The window is a byte-addressed memory, for every content of the target and
every written values, on exactly the access patterns that keep to word offsets. -/
theorem byteAddressed_iff_word_offsets (hconnected : clientIsConnect server = true)
    (htype : client.type = .client) (shapes : List AccessShape)
    (hcore : ∀ shape ∈ shapes, CoreAccess shape) :
    (∀ (cpu : QemuCpu) (calls : List MmioCall), calls.map MmioCall.shape = shapes →
      ByteAddressed server client cpu (window mmioAddr.toNat cpu.memory.mem) calls) ↔
        ∀ shape ∈ shapes, shape.offset.toNat % 4 = 0 := by
  constructor
  · -- One content and one choice of values are enough to find a bad offset.
    intro hall
    let cpu : QemuCpu :=
      { memory := { mem := fun cell => lanes (cell - mmioAddr.toNat) }, vptResp := default }
    have hlanes : window mmioAddr.toNat cpu.memory.mem = lanes := by
      funext cell
      show lanes (mmioAddr.toNat + cell - mmioAddr.toNat) = lanes cell
      rw [Nat.add_sub_cancel_left]
    have hshapes : (shapes.map laneCall).map MmioCall.shape = shapes := by
      rw [List.map_map]
      exact List.map_id'' shape_laneCall shapes
    have hholds := hall cpu (shapes.map laneCall) hshapes
    rw [hlanes] at hholds
    exact word_offsets_of_byteAddressed_lanes hconnected htype cpu hlanes shapes hcore hholds
  · rintro haligned cpu calls rfl
    rw [List.forall_mem_map] at hcore haligned
    exact byteAddressed_of_word_offsets hconnected htype cpu calls hcore haligned

end EndToEnd

/-- The records of a connected server and of its client. -/
def connectedServer : VpIpcModule :=
  { type := .server, epollFd := 3, sockFd := 5, serverFd := 4 }

/-- The client's record. -/
def connectedClient : VpIpcModule := (createVpModule .client 3 4).1

/-- A target of zeros. -/
def zeroCpu : QemuCpu := { memory := { mem := fun _ => 0 }, vptResp := default }

/-- A word written and a byte read, at word offsets. -/
def wordOffsetCalls : List MmioCall := [.write 4 0x12345678 4, .read 4 1]

theorem wordOffsetCalls_byteAddressed :
    (∀ shape ∈ wordOffsetCalls.map MmioCall.shape, CoreAccess shape) ∧
      ByteAddressed connectedServer connectedClient zeroCpu
        (window mmioAddr.toNat zeroCpu.memory.mem) wordOffsetCalls := by
  have hcore : ∀ shape ∈ wordOffsetCalls.map MmioCall.shape, CoreAccess shape := by
    have hchecks : ∀ shape ∈ wordOffsetCalls.map MmioCall.shape,
        (shape.size.toNat = 1 ∨ shape.size.toNat = 2 ∨ shape.size.toNat = 4) ∧
          shape.offset.toNat % shape.size.toNat = 0 ∧
            shape.offset.toNat + shape.size.toNat ≤ mmioSize := by decide
    exact fun shape hshape =>
      ⟨(hchecks shape hshape).1, (hchecks shape hshape).2.1, (hchecks shape hshape).2.2⟩
  exact ⟨hcore, (@byteAddressed_iff_word_offsets connectedServer connectedClient rfl rfl _
    hcore).mpr (by decide) zeroCpu wordOffsetCalls rfl⟩

/-- Two byte writes next to each other: the second one goes to the place of the
first, and the first byte reads back as the second. -/
theorem second_byte_overwrites_first :
    let write := mmioBusWrite connectedServer (vpBTransfer connectedClient)
    let second := (write (write zeroCpu 0 0x11 1).1 1 0x22 1).1
    (mmioBusRead connectedServer (vpBTransfer connectedClient) second 0 1).2 = some 0x22 ∧
      ¬ByteAddressed connectedServer connectedClient zeroCpu
        (window mmioAddr.toNat zeroCpu.memory.mem)
        [.write 0 0x11 1, .write 1 0x22 1, .read 0 1] := by
  intro write second
  have hread :
      (mmioBusRead connectedServer (vpBTransfer connectedClient) second 0 1).2 = some 0x22 := by
    decide
  refine ⟨hread, ?_⟩
  rintro ⟨afterFirst, hfirst, -, afterSecond, hsecond, -, afterRead, value, hvalue, hflat, -⟩
  obtain rfl : (write zeroCpu 0 0x11 1).1 = afterFirst := congrArg Prod.fst hfirst
  obtain rfl : second = afterSecond := congrArg Prod.fst hsecond
  rw [hvalue] at hread
  obtain rfl := Option.some.inj hread
  exact absurd hflat (by decide)

end Platform
end AislabVP
