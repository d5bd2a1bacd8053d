import AislabVP.Qemu.MmioBus

/-!
# The service of `tcp_thread_func`

Seen from the SystemC side the thread offers a memory and one interrupt line:
a write request changes the addressed bytes, a read request returns them, an
interrupt request sets the line, and anything else is refused.  `Serves` states
this for one request over the abstract state, guest RAM and the line.
`ServiceRun` follows the thread through a whole run and asks for it at every
turn, whatever earlier requests left in `value` and in the response record.

The run implements the service exactly when no interrupt request is lost in the
conversion of its 64-bit data to the `int` of `mmio_bus_set_irq`
(`serveBatches_implements_service_iff`).
-/

namespace AislabVP
namespace Qemu

open Foundation Vpipc

/-- What a client of the service can observe of QEMU. -/
structure ServiceState where
  ram : ByteStore
  asserted : Bool

/-- The effect and the answer that the service promises for a request. -/
def Serves (before after : ServiceState) (request response : VpTransfer) : Prop :=
  response.sockFd = request.sockFd ∧
    match VpType.ofCode request.data.type with
    | some .vpWrite =>
        after.ram = writeBytes before.ram request.data.addr.toNat
            (leBytes request.data.length.toNat request.data.data.toNat) ∧
          after.asserted = before.asserted ∧
          response.data.type = VpType.vpWriteResp.code ∧ response.data.status = vpOk
    | some .vpRead =>
        after = before ∧
          leBytes request.data.length.toNat response.data.data.toNat =
            readBytes before.ram request.data.addr.toNat request.data.length.toNat ∧
          response.data.type = VpType.vpReadResp.code ∧ response.data.status = vpOk
    | some .vpRaiseIrq =>
        after.ram = before.ram ∧
          (after.asserted = true ↔ request.data.data ≠ 0) ∧
          response.data.type = VpType.vpRaiseIrqResp.code ∧ response.data.status = vpOk
    | _ =>
        after = before ∧
          response.data.type = VpType.vpError.code ∧ response.data.status = vpFail

/-- Read and write requests name RAM and at most eight bytes. -/
def RamRequest (isRam : Nat → Prop) (request : VpTransfer) : Prop :=
  request.data.type = VpType.vpRead.code ∨ request.data.type = VpType.vpWrite.code →
    request.data.length.toNat ≤ 8 ∧
      ∀ index < request.data.length.toNat, isRam (request.data.addr.toNat + index)

/-- A nonzero interrupt request stays nonzero as an `int`. -/
def IrqFits (request : VpTransfer) : Prop :=
  request.data.type = VpType.vpRaiseIrq.code →
    request.data.data ≠ 0 → request.data.data.setWidth 32 ≠ 0

section Run

variable {Guest : Type*}
variable (mem : PhysicalMemory Guest) (ram : Guest → ByteStore)

/-- The abstract state of the thread. -/
def TcpThread.service (thread : TcpThread Guest) : ServiceState where
  ram := ram thread.guest
  asserted := decide (thread.irq ≠ 0)

/-- A run of the thread whose every turn serves its request; the indices are the
requests, the responses and the last state. -/
inductive ServiceRun :
    TcpThread Guest → List VpTransfer → List VpTransfer → TcpThread Guest → Prop
  | done (thread : TcpThread Guest) : ServiceRun thread [] [] thread
  | turn {thread next final : TcpThread Guest} {vpt : VpTransfer}
      {rest sent : List VpTransfer}
      (hserve : thread.serve mem vpt = some next)
      (hmeets : Serves (thread.service ram) (next.service ram) vpt next.vptResp)
      (hrest : ServiceRun next rest sent final) :
      ServiceRun thread (vpt :: rest) (next.vptResp :: sent) final

variable {mem ram} {isRam : Nat → Prop}

/-- The run is the one that the loop makes. -/
theorem ServiceRun.serveBatch_eq {thread final : TcpThread Guest}
    {requests sent : List VpTransfer}
    (hrun : ServiceRun mem ram thread requests sent final) :
    thread.serveBatch mem requests = some (final, sent) := by
  induction hrun with
  | done thread => rfl
  | turn hserve _ _ ih => simp only [TcpThread.serveBatch, hserve, ih]

/-! ## One turn -/

theorem serves_write (hram : RamCopies mem isRam ram) (thread : TcpThread Guest)
    {vpt : VpTransfer} (htype : VpType.ofCode vpt.data.type = some .vpWrite)
    (hlen : vpt.data.length.toNat ≤ 8)
    (hrange : ∀ index < vpt.data.length.toNat, isRam (vpt.data.addr.toNat + index)) :
    Serves (thread.service ram) ((thread.serveWrite mem vpt).service ram) vpt
      (thread.serveWrite mem vpt).vptResp := by
  have hbytes : (leBytes sizeofValue vpt.data.data.toNat).take vpt.data.length.toNat =
      leBytes vpt.data.length.toNat vpt.data.data.toNat :=
    take_leBytes _ _ _ hlen
  refine ⟨rfl, ?_⟩
  simp only [htype]
  refine ⟨?_, rfl, rfl, rfl⟩
  show ram (mem.cpuPhysicalMemoryWrite thread.guest vpt.data.addr _) = _
  rw [hbytes]
  apply hram.write
  rw [length_leBytes]
  exact hrange

/-- The low bytes of `value` are those just copied over its old content. -/
theorem leBytes_value_overlay (value : BitVec 64) (bytes : List Byte)
    (hlen : bytes.length ≤ 8) :
    leBytes bytes.length
      (BitVec.ofNat 64 (leValue (overlay (leBytes sizeofValue value.toNat) bytes))).toNat =
        bytes := by
  rw [BitVec.toNat_ofNat, show (2 : Nat) ^ 64 = 256 ^ 8 from by norm_num,
    leBytes_mod _ 8 _ hlen, leBytes_leValue_overlay]

theorem serves_read (hram : RamCopies mem isRam ram) (thread : TcpThread Guest)
    {vpt : VpTransfer} (htype : VpType.ofCode vpt.data.type = some .vpRead)
    (hlen : vpt.data.length.toNat ≤ 8)
    (hrange : ∀ index < vpt.data.length.toNat, isRam (vpt.data.addr.toNat + index)) :
    Serves (thread.service ram) ((thread.serveRead mem vpt).service ram) vpt
      (thread.serveRead mem vpt).vptResp := by
  obtain ⟨hcopied, hkeeps⟩ := hram.read thread.guest vpt.data.addr _ hrange
  refine ⟨rfl, ?_⟩
  simp only [htype]
  refine ⟨?_, ?_, rfl, rfl⟩
  · exact congrArg (ServiceState.mk · (thread.service ram).asserted) hkeeps
  · have hlow := leBytes_value_overlay thread.value
      (readBytes (ram thread.guest) vpt.data.addr.toNat vpt.data.length.toNat)
      (by rw [length_readBytes]; exact hlen)
    rw [length_readBytes, ← hcopied] at hlow
    exact hlow.trans hcopied

/-- The line follows the `int`, so the request is served when that is nonzero
exactly if the data word is. -/
theorem serves_raiseIrq_iff (thread : TcpThread Guest) {vpt : VpTransfer}
    (htype : VpType.ofCode vpt.data.type = some .vpRaiseIrq) :
    Serves (thread.service ram) ((thread.serveRaiseIrq vpt).service ram) vpt
      (thread.serveRaiseIrq vpt).vptResp ↔ IrqFits vpt := by
  have hzero : vpt.data.data = 0 → vpt.data.data.setWidth 32 = 0 := by
    intro hdata
    rw [hdata]
    rfl
  have hline : ((thread.serveRaiseIrq vpt).service ram).asserted = true ↔
      vpt.data.data.setWidth 32 ≠ 0 := decide_eq_true_iff
  constructor
  · -- The promise read at a nonzero data word.
    rintro ⟨-, hserves⟩ - hdata
    simp only [htype] at hserves
    exact hline.mp (hserves.2.1.mpr hdata)
  · intro hfits
    refine ⟨rfl, ?_⟩
    simp only [htype]
    refine ⟨rfl, ?_, rfl, rfl⟩
    rw [hline]
    exact ⟨fun hint hdata => hint (hzero hdata), hfits (VpType.code_of_ofCode htype)⟩

/-- Any other type is refused and changes nothing. -/
theorem serves_default (thread : TcpThread Guest) {vpt : VpTransfer} {type : Option VpType}
    (htype : VpType.ofCode vpt.data.type = type) (hwrite : type ≠ some .vpWrite)
    (hread : type ≠ some .vpRead) (hraise : type ≠ some .vpRaiseIrq) :
    thread.serve mem vpt = some (thread.serveDefault vpt) ∧
      Serves (thread.service ram) ((thread.serveDefault vpt).service ram) vpt
        (thread.serveDefault vpt).vptResp := by
  refine ⟨?_, rfl, ?_⟩
  · unfold TcpThread.serve
    rw [htype]
    split
    · contradiction
    · contradiction
    · contradiction
    · rfl
  · rw [htype]
    split
    · contradiction
    · contradiction
    · contradiction
    · exact ⟨rfl, rfl, rfl⟩

/-- Every request is taken care of, and as promised unless its interrupt level is
lost. -/
theorem serve_spec (hram : RamCopies mem isRam ram)
    (hwindow : ∀ cell, isRam cell → ¬InWindow cell) (thread : TcpThread Guest)
    {vpt : VpTransfer} (hrequest : RamRequest isRam vpt) :
    ∃ next, thread.serve mem vpt = some next ∧
      (Serves (thread.service ram) (next.service ram) vpt next.vptResp ↔ IrqFits vpt) := by
  -- Only an interrupt request can fail to fit.
  have hfits (hnot : VpType.ofCode vpt.data.type ≠ some .vpRaiseIrq) : IrqFits vpt := by
    intro hcode
    rw [hcode, VpType.ofCode_code] at hnot
    exact absurd rfl hnot
  cases htype : VpType.ofCode vpt.data.type with
  | none =>
      obtain ⟨hserve, hserves⟩ := serves_default thread htype nofun nofun nofun
      exact ⟨_, hserve, iff_of_true hserves (hfits (by rw [htype]; nofun))⟩
  | some type =>
      cases type with
      | vpWrite =>
          obtain ⟨hlen, hrange⟩ := hrequest (Or.inr (VpType.code_of_ofCode htype))
          refine ⟨thread.serveWrite mem vpt, ?_, ?_⟩
          · simp only [TcpThread.serve, htype, copyReturns_of_ram hwindow hlen hrange, if_true]
          · exact iff_of_true (serves_write hram thread htype hlen hrange)
              (hfits (by rw [htype]; nofun))
      | vpRead =>
          obtain ⟨hlen, hrange⟩ := hrequest (Or.inl (VpType.code_of_ofCode htype))
          refine ⟨thread.serveRead mem vpt, ?_, ?_⟩
          · simp only [TcpThread.serve, htype, copyReturns_of_ram hwindow hlen hrange, if_true]
          · exact iff_of_true (serves_read hram thread htype hlen hrange)
              (hfits (by rw [htype]; nofun))
      | vpRaiseIrq =>
          refine ⟨thread.serveRaiseIrq vpt, ?_, serves_raiseIrq_iff thread htype⟩
          simp only [TcpThread.serve, htype]
      | vpWriteResp | vpReadResp | vpRaiseIrqResp | vpError =>
          obtain ⟨hserve, hserves⟩ := serves_default thread htype nofun nofun nofun
          exact ⟨_, hserve, iff_of_true hserves (hfits (by rw [htype]; nofun))⟩

/-! ## Runs -/

/-- The outer loop does not change what the inner one does: the batches are
served like the one list of their requests. -/
theorem serveBatch_append (thread : TcpThread Guest) (front back : List VpTransfer) :
    thread.serveBatch mem (front ++ back) =
      (thread.serveBatch mem front).bind fun middle =>
        (middle.1.serveBatch mem back).map fun last => (last.1, middle.2 ++ last.2) := by
  induction front generalizing thread with
  | nil => simp [TcpThread.serveBatch]
  | cons vpt rest ih =>
      rw [List.cons_append, TcpThread.serveBatch, TcpThread.serveBatch]
      cases hserve : thread.serve mem vpt with
      | none => rfl
      | some next =>
          simp only [ih]
          cases hrest : next.serveBatch mem rest with
          | none => rfl
          | some middle =>
              simp only [Option.bind_some]
              cases hback : middle.1.serveBatch mem back with
              | none => rfl
              | some last => rfl

theorem serveBatches_eq_serveBatch (thread : TcpThread Guest) (batches : List Batch) :
    thread.serveBatches mem batches = thread.serveBatch mem (batches.flatMap Batch.vpt) := by
  induction batches generalizing thread with
  | nil => rfl
  | cons batch rest ih =>
      rw [List.flatMap_cons, serveBatch_append, TcpThread.serveBatches]
      cases hbatch : thread.serveBatch mem batch.vpt with
      | none => rfl
      | some middle =>
          simp only [Option.bind_some, ih]
          cases middle.1.serveBatch mem (rest.flatMap Batch.vpt) with
          | none => rfl
          | some last => rfl

/-- The run of a list of requests, by induction on the list from the turn
specification. -/
theorem serveBatch_run_iff (hram : RamCopies mem isRam ram)
    (hwindow : ∀ cell, isRam cell → ¬InWindow cell) (thread : TcpThread Guest)
    (requests : List VpTransfer)
    (hrequests : ∀ vpt ∈ requests, RamRequest isRam vpt) :
    (∃ final sent, thread.serveBatch mem requests = some (final, sent) ∧
      ServiceRun mem ram thread requests sent final) ↔
        ∀ vpt ∈ requests, IrqFits vpt := by
  induction requests generalizing thread with
  | nil => exact iff_of_true ⟨thread, [], rfl, .done thread⟩ (by simp)
  | cons vpt rest ih =>
      obtain ⟨next, hserve, hspec⟩ := serve_spec hram hwindow thread
        (hrequests vpt List.mem_cons_self)
      have hrest := ih next fun other hmem => hrequests other (List.mem_cons_of_mem _ hmem)
      rw [List.forall_mem_cons, ← hrest, ← hspec]
      constructor
      · rintro ⟨final, sent, -, hrun⟩
        cases hrun with
        | turn hserve' hmeets hrun' =>
            obtain rfl := Option.some.inj (hserve.symm.trans hserve')
            exact ⟨hmeets, final, _, hrun'.serveBatch_eq, hrun'⟩
      · rintro ⟨hmeets, final, sent, hbatch, hrun⟩
        refine ⟨final, next.vptResp :: sent, ?_, .turn hserve hmeets hrun⟩
        simp only [TcpThread.serveBatch, hserve, hbatch]

/-- Over whole runs the thread implements the service exactly when no interrupt
request of the run is nonzero with all its low 32 bits zero. -/
theorem serveBatches_implements_service_iff (hram : RamCopies mem isRam ram)
    (hwindow : ∀ cell, isRam cell → ¬InWindow cell)
    (thread : TcpThread Guest) (batches : List Batch)
    (hrequests : ∀ batch ∈ batches, ∀ vpt ∈ batch.vpt, RamRequest isRam vpt) :
    (∃ final sent, thread.serveBatches mem batches = some (final, sent) ∧
      ServiceRun mem ram thread (batches.flatMap Batch.vpt) sent final) ↔
        ∀ batch ∈ batches, ∀ vpt ∈ batch.vpt, IrqFits vpt := by
  have hflat : ∀ vpt ∈ batches.flatMap Batch.vpt, RamRequest isRam vpt := by
    intro vpt hvpt
    rcases List.mem_flatMap.mp hvpt with ⟨batch, hbatch, hmem⟩
    exact hrequests batch hbatch vpt hmem
  rw [serveBatches_eq_serveBatch, serveBatch_run_iff hram hwindow thread _ hflat]
  constructor
  · intro hfits batch hbatch vpt hvpt
    exact hfits vpt (List.mem_flatMap.mpr ⟨batch, hbatch, hvpt⟩)
  · intro hfits vpt hvpt
    rcases List.mem_flatMap.mp hvpt with ⟨batch, hbatch, hmem⟩
    exact hfits batch hbatch vpt hmem

end Run

/-! ## A guest whose memory is all RAM -/

/-- Guest memory that is one byte store. -/
def plainMemory : PhysicalMemory ByteStore where
  cpuPhysicalMemoryRead := fun store addr count => (readBytes store addr.toNat count, store)
  cpuPhysicalMemoryWrite := fun store addr bytes => writeBytes store addr.toNat bytes

theorem plainMemory_ramCopies : RamCopies plainMemory (dramBase ≤ ·) id where
  read := fun _ _ _ _ => ⟨rfl, rfl⟩
  write := fun _ _ _ _ => rfl

theorem dram_not_inWindow (cell : Nat) (hcell : dramBase ≤ cell) : ¬InWindow cell := by
  rintro ⟨-, hbelow⟩
  exact absurd (hcell.trans_lt hbelow) (by decide)

/-- A thread that has served nothing yet. -/
def idleThread : TcpThread ByteStore where
  guest := fun _ => 0
  irq := 0
  value := 0
  vptResp := default

/-- A write, a read back, a rising line and an unknown type. -/
def serviceRequests : List Batch :=
  [ { vpt :=
        [ { sockFd := 7
            data := { type := VpType.vpWrite.code, length := 2, addr := 0x80000000,
                      data := 0xBEEF } },
          { sockFd := 7
            data := { type := VpType.vpRead.code, length := 1, addr := 0x80000001, data := 0 } } ]
      fits := by decide },
    { vpt :=
        [ { sockFd := 7
            data := { type := VpType.vpRaiseIrq.code, length := 0, addr := 0, data := 1 } },
          { sockFd := 7, data := { type := 99, length := 0, addr := 0, data := 0 } } ]
      fits := by decide } ]

theorem serviceRequests_implement_service :
    ∃ final sent, idleThread.serveBatches plainMemory serviceRequests = some (final, sent) ∧
      ServiceRun plainMemory id idleThread (serviceRequests.flatMap Batch.vpt) sent final := by
  have hrequests : ∀ batch ∈ serviceRequests, ∀ vpt ∈ batch.vpt,
      RamRequest (dramBase ≤ ·) vpt := by
    have hranges : ∀ batch ∈ serviceRequests, ∀ vpt ∈ batch.vpt,
        vpt.data.type = VpType.vpRead.code ∨ vpt.data.type = VpType.vpWrite.code →
          vpt.data.length.toNat ≤ 8 ∧ dramBase ≤ vpt.data.addr.toNat := by decide
    intro batch hbatch vpt hvpt htype
    obtain ⟨hlength, hbase⟩ := hranges batch hbatch vpt hvpt htype
    exact ⟨hlength, fun index _ => hbase.trans (Nat.le_add_right _ _)⟩
  have hfits : ∀ batch ∈ serviceRequests, ∀ vpt ∈ batch.vpt, IrqFits vpt := by
    unfold IrqFits
    decide
  exact (serveBatches_implements_service_iff plainMemory_ramCopies dram_not_inWindow
    idleThread serviceRequests hrequests).mpr hfits

/-- An interrupt request whose data is `2 ^ 32`. -/
def wideIrqRequest : VpTransfer where
  sockFd := 7
  data :=
    { type := VpType.vpRaiseIrq.code, length := 0, addr := 0, data := 0x100000000 }

/-- The request asks for an asserted line; it is confirmed and the line stays
down, so the run does not implement the service. -/
theorem wide_irq_request_is_lost :
    let batches : List Batch := [{ vpt := [wideIrqRequest], fits := by decide }]
    (∃ final resp, idleThread.serveBatches plainMemory batches = some (final, [resp]) ∧
      resp.data.type = VpType.vpRaiseIrqResp.code ∧ resp.data.status = vpOk ∧
        final.irq = 0) ∧
      ¬∃ final sent, idleThread.serveBatches plainMemory batches = some (final, sent) ∧
        ServiceRun plainMemory id idleThread (batches.flatMap Batch.vpt) sent final := by
  intro batches
  refine ⟨⟨idleThread.serveRaiseIrq wideIrqRequest, _, rfl, rfl, rfl, by decide⟩, ?_⟩
  rintro ⟨final, sent, -, hrun⟩
  cases hrun with
  | turn hserve hmeets hrest =>
      obtain rfl := Option.some.inj hserve
      have hfits := (serves_raiseIrq_iff idleThread rfl).mp hmeets
      exact absurd hfits (by unfold IrqFits; decide)

end Qemu
end AislabVP
