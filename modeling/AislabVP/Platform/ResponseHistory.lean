import AislabVP.Foundation.Runs
import AislabVP.Qemu.Iteration
import AislabVP.SystemC.Dispatcher

/-!
# What a response remembers

Both dispatchers fill one response record over and over, and `tcp_thread_func` copies
into one `value`.  No branch clears them first.  So a response holds what the branch
assigns and, in the other fields and in the bytes of `value` above the copied ones, what
earlier requests left there.

`HistoryIndependent` compares two runs of a dispatcher that reach the same memory by any
two histories.  For each dispatcher the module determines the requests whose response is
the same in both (`responses_independent_iff`).
-/

namespace AislabVP
namespace Platform

open Foundation Vpipc Qemu SystemC

/-! ## `tcp_thread_func` -/

section Thread

variable {Guest : Type*} {mem : PhysicalMemory Guest}

/-- The requests that `tcp_thread_func` answers from memory and constants alone:
interrupt requests, reads of the whole `value`, and what is not answered at all. -/
def ThreadForgets (request : VpTransfer) : Prop :=
  request.data.type = VpType.vpRaiseIrq.code ∨
    (request.data.type = VpType.vpRead.code ∧ request.data.length.toNat = sizeofValue) ∨
    ¬CopyReturns request

/-- The bytes of `value` after a read: those copied, then those left over. -/
theorem leBytes_value_of_read (value : BitVec 64) {bytes : List Byte}
    (hlength : bytes.length ≤ sizeofValue) :
    leBytes sizeofValue
        (BitVec.ofNat 64 (leValue (overlay (leBytes sizeofValue value.toNat) bytes))).toNat =
      overlay (leBytes sizeofValue value.toNat) bytes := by
  have hwhole : (overlay (leBytes sizeofValue value.toNat) bytes).length = sizeofValue := by
    rw [length_overlay (by rw [length_leBytes]; exact hlength), length_leBytes]
  have hround := leBytes_ofNat_leValue (overlay (leBytes sizeofValue value.toNat) bytes)
    hwhole.le
  rw [hwhole] at hround
  exact hround

/-- The last byte of `value` is left over by a read of fewer than eight bytes. -/
theorem drop_value_of_short_read (value : BitVec 64) {bytes : List Byte}
    (hshort : bytes.length < sizeofValue) :
    (leBytes sizeofValue
        (BitVec.ofNat 64
          (leValue (overlay (leBytes sizeofValue value.toNat) bytes))).toNat).drop 7 =
      (leBytes sizeofValue value.toNat).drop 7 := by
  have hseven : bytes.length ≤ 7 := Nat.le_of_lt_succ hshort
  rw [leBytes_value_of_read value hshort.le, drop_overlay _ hseven]

/-- A read of eight bytes leaves nothing of the old `value`. -/
theorem value_of_whole_read (value other : BitVec 64) {bytes : List Byte}
    (hwhole : bytes.length = sizeofValue) :
    overlay (leBytes sizeofValue value.toNat) bytes =
      overlay (leBytes sizeofValue other.toNat) bytes := by
  have hall : ∀ old, (leBytes sizeofValue old).length ≤ bytes.length := fun old => by
    rw [length_leBytes, hwhole]
  rw [overlay_of_length_le (hall _), overlay_of_length_le (hall _)]

/-- A thread with the given leftovers. -/
def leftoverThread (guest : Guest) (leftover : BitVec 64) : TcpThread Guest where
  guest := guest
  irq := 0
  value := leftover
  vptResp :=
    { sockFd := -1, data := { type := 0, length := 0, addr := 0, data := leftover } }

/-- A turn that is neither a read nor an interrupt request leaves `data` as it was. -/
theorem data_of_serve {thread next : TcpThread Guest} {request : VpTransfer}
    (hserve : thread.serve mem request = some next)
    (hraise : request.data.type ≠ VpType.vpRaiseIrq.code)
    (hread : request.data.type ≠ VpType.vpRead.code) :
    next.vptResp.data.data = thread.vptResp.data.data := by
  rcases serve_cases hserve with ⟨-, -, rfl⟩ | ⟨htype, -⟩ | ⟨htype, -⟩ | ⟨-, rfl⟩
  · rfl
  · exact absurd (VpType.code_of_ofCode htype) hread
  · exact absurd (VpType.code_of_ofCode htype) hraise
  · rfl

theorem serve_read_eq {thread next : TcpThread Guest} {request : VpTransfer}
    (hserve : thread.serve mem request = some next)
    (hread : request.data.type = VpType.vpRead.code) : next = thread.serveRead mem request := by
  unfold TcpThread.serve at hserve
  rw [hread, VpType.ofCode_code] at hserve
  simp only at hserve
  split at hserve
  · exact (Option.some.inj hserve).symm
  · cases hserve

/-- A request that is answered and is not one of those shows what is left over. -/
theorem thread_remembers [Inhabited Guest]
    (hread : ∀ guest addr count, (mem.cpuPhysicalMemoryRead guest addr count).1.length = count)
    {request : VpTransfer} (hlength : request.data.length.toNat ≤ sizeofValue)
    (hremembers : ¬ThreadForgets request) :
    ∃ left right, (leftoverThread default 0).serve mem request = some left ∧
      (leftoverThread default 0x0100000000000000).serve mem request = some right ∧
      left.vptResp.data.data ≠ right.vptResp.data.data := by
  unfold ThreadForgets at hremembers
  simp only [not_or, not_not] at hremembers
  obtain ⟨hraise, hwhole, hreturns⟩ := hremembers
  obtain ⟨left, hleft⟩ := (serve_eq_some_iff mem (leftoverThread default 0)).mpr hreturns
  obtain ⟨right, hright⟩ :=
    (serve_eq_some_iff mem (leftoverThread default 0x0100000000000000)).mpr hreturns
  refine ⟨left, right, hleft, hright, ?_⟩
  by_cases htype : request.data.type = VpType.vpRead.code
  · obtain rfl := serve_read_eq hleft htype
    obtain rfl := serve_read_eq hright htype
    have hshort : request.data.length.toNat < sizeofValue :=
      Nat.lt_of_le_of_ne hlength fun hsame => hwhole ⟨htype, hsame⟩
    have hbytes := hread default request.data.addr request.data.length.toNat
    rw [← hbytes] at hshort
    -- The responses agree in the bytes that were read only.
    intro hdata
    have hlast := congrArg (fun word : BitVec 64 => (leBytes sizeofValue word.toNat).drop 7)
      hdata
    have hleftLast := drop_value_of_short_read 0 hshort
    have hrightLast := drop_value_of_short_read 0x0100000000000000 hshort
    have hsame := hleftLast.symm.trans (hlast.trans hrightLast)
    exact absurd hsame (by decide)
  · rw [data_of_serve hleft hraise htype, data_of_serve hright hraise htype]
    exact (by decide : (0 : BitVec 64) ≠ 0x0100000000000000)

theorem thread_independent_iff [Inhabited Guest]
    (hread : ∀ guest addr count, (mem.cpuPhysicalMemoryRead guest addr count).1.length = count)
    {request : VpTransfer} (hlength : request.data.length.toNat ≤ sizeofValue) :
    HistoryIndependent (TcpThread.serve mem) TcpThread.guest
        (fun thread => thread.vptResp.data.image) request ↔ ThreadForgets request := by
  rw [historyIndependent_iff]
  constructor
  · intro hindependent
    by_contra hremembers
    obtain ⟨left, right, hleft, hright, hdata⟩ := thread_remembers hread hlength hremembers
    have himage := hindependent (leftoverThread default 0)
      (leftoverThread default 0x0100000000000000) left right rfl hleft hright
    exact hdata (congrArg VpTransferData.data (image_injective himage))
  · rintro hforgets left right leftNext rightNext hguest hleft hright
    refine congrArg VpTransferData.image ?_
    rcases hforgets with hraise | ⟨htype, hwhole⟩ | hstuck
    · simp only [TcpThread.serve, hraise, VpType.ofCode_code, Option.some.injEq] at hleft hright
      subst hleft hright
      rfl
    · obtain rfl := serve_read_eq hleft htype
      obtain rfl := serve_read_eq hright htype
      have hbytes := hread right.guest request.data.addr request.data.length.toNat
      simp only [TcpThread.serveRead, TcpThread.answer, hguest,
        value_of_whole_read left.value right.value (hbytes.trans hwhole)]
    · exact absurd ((serve_eq_some_iff mem left).mp ⟨_, hleft⟩) hstuck

end Thread

/-! ## `thread_process` -/

/-- A turn of `thread_process` that sends its response. -/
def answeringTurn (cpu : QemuCpu) (vpt : VpTransfer) : Option QemuCpu :=
  match cpu.dispatch vpt with
  | (next, .ok _) => some next
  | (_, .error _) => none

/-- The requests that `thread_process` answers from memory and constants alone: reads,
and writes that the target refuses, which are not answered at all. -/
def ProcessForgets (request : VpTransfer) : Prop :=
  request.data.type = VpType.vpRead.code ∨
    (request.data.type = VpType.vpWrite.code ∧ ¬Accepts (writeTransaction request.data))

/-- A member variable with the given leftovers. -/
def leftoverCpu (memory : Memory) (leftover : BitVec 64) : QemuCpu where
  memory := memory
  vptResp :=
    { sockFd := -1, data := { type := 0, length := 0, addr := 0, data := leftover } }

theorem answeringTurn_eq_some_iff {cpu next : QemuCpu} {vpt : VpTransfer} :
    answeringTurn cpu vpt = some next ↔ ∃ resp, cpu.dispatch vpt = (next, .ok resp) := by
  unfold answeringTurn
  constructor
  · intro hturn
    split at hturn
    · rename_i after resp hdispatch
      obtain rfl := Option.some.inj hturn
      exact ⟨resp, hdispatch⟩
    · cases hturn
  · rintro ⟨resp, hdispatch⟩
    rw [hdispatch]

/-- A turn that answers has a transaction that the target accepts, or none. -/
theorem accepts_of_answeringTurn {cpu next : QemuCpu} {vpt : VpTransfer}
    (hturn : answeringTurn cpu vpt = some next) {trans : TlmPayload}
    (htrans : requestTransaction vpt = some trans) : Accepts trans := by
  obtain ⟨resp, hdispatch⟩ := answeringTurn_eq_some_iff.mp hturn
  exact (dispatch_answers_iff cpu vpt).mp ⟨next, resp, hdispatch⟩ trans htrans

/-- Any other request is answered, and with what is left over in `data`. -/
theorem process_remembers {request : VpTransfer} (hremembers : ¬ProcessForgets request)
    (cpu : QemuCpu) :
    ∃ next, answeringTurn cpu request = some next ∧
      next.vptResp.data.data = cpu.vptResp.data.data := by
  unfold ProcessForgets at hremembers
  simp only [not_or, not_and, not_not] at hremembers
  obtain ⟨hread, hwrite⟩ := hremembers
  have haccepts : ∀ trans ∈ requestTransaction request, Accepts trans := by
    intro trans htrans
    have htrans : requestTransaction request = some trans := htrans
    unfold requestTransaction at htrans
    split at htrans
    · rename_i htype
      obtain rfl := Option.some.inj htrans
      exact hwrite (VpType.code_of_ofCode htype)
    · rename_i htype
      exact absurd (VpType.code_of_ofCode htype) hread
    · cases htrans
  obtain ⟨next, resp, hdispatch⟩ := (dispatch_answers_iff cpu request).mpr haccepts
  obtain ⟨hresp, hcases⟩ := dispatch_ok_cases hdispatch
  refine ⟨next, answeringTurn_eq_some_iff.mpr ⟨resp, hdispatch⟩, ?_⟩
  rw [hresp]
  rcases hcases with ⟨-, -, rfl⟩ | ⟨htype, -⟩ | ⟨-, rfl⟩
  · rfl
  · exact absurd htype hread
  · rfl

theorem process_independent_iff {request : VpTransfer} :
    HistoryIndependent answeringTurn QemuCpu.memory (fun cpu => cpu.vptResp.data.image)
        request ↔ ProcessForgets request := by
  rw [historyIndependent_iff]
  constructor
  · intro hindependent
    by_contra hremembers
    have memory : Memory := { mem := fun _ => 0 }
    obtain ⟨left, hleft, hleftData⟩ := process_remembers hremembers (leftoverCpu memory 0)
    obtain ⟨right, hright, hrightData⟩ := process_remembers hremembers (leftoverCpu memory 1)
    have himage := hindependent (leftoverCpu memory 0) (leftoverCpu memory 1) left right rfl
      hleft hright
    have hdata := congrArg VpTransferData.data (image_injective himage)
    rw [hleftData, hrightData] at hdata
    exact absurd (show (0 : BitVec 64) = 1 from hdata) (by decide)
  · rintro hforgets left right leftNext rightNext hmemory hleft hright
    refine congrArg VpTransferData.image ?_
    rcases hforgets with htype | ⟨htype, hrefused⟩
    · have htrans : requestTransaction request = some (readTransaction request.data) := by
        simp [requestTransaction, htype]
      have haccepts := accepts_of_answeringTurn hleft htrans
      obtain ⟨leftResp, hleftDispatch⟩ := answeringTurn_eq_some_iff.mp hleft
      obtain ⟨rightResp, hrightDispatch⟩ := answeringTurn_eq_some_iff.mp hright
      rw [dispatch_read left request htype haccepts] at hleftDispatch
      rw [dispatch_read right request htype haccepts] at hrightDispatch
      obtain ⟨rfl, -⟩ := Prod.mk.inj hleftDispatch
      obtain ⟨rfl, -⟩ := Prod.mk.inj hrightDispatch
      simp only [hmemory]
    · have htrans : requestTransaction request = some (writeTransaction request.data) := by
        simp [requestTransaction, htype]
      exact absurd (accepts_of_answeringTurn hleft htrans) hrefused

/-! ## Both dispatchers -/

/-- The response to a request of at most eight bytes is independent of all earlier
traffic and of the initial content of the variables if and only if the dispatcher takes
it from memory and constants alone. -/
theorem responses_independent_iff {Guest : Type*} [Inhabited Guest] (mem : PhysicalMemory Guest)
    (hread : ∀ guest addr count, (mem.cpuPhysicalMemoryRead guest addr count).1.length = count)
    (request : VpTransfer) (hlength : request.data.length.toNat ≤ 8) :
    (HistoryIndependent (TcpThread.serve mem) TcpThread.guest
        (fun thread => thread.vptResp.data.image) request ↔ ThreadForgets request) ∧
      (HistoryIndependent answeringTurn QemuCpu.memory (fun cpu => cpu.vptResp.data.image)
        request ↔ ProcessForgets request) :=
  ⟨thread_independent_iff hread hlength, process_independent_iff⟩

/-- A read of a whole `value`. -/
def wholeRead : VpTransfer where
  sockFd := 7
  data := { type := VpType.vpRead.code, length := 8, addr := 0x80000000, data := 0 }

theorem whole_read_responses_independent :
    HistoryIndependent (TcpThread.serve plainMemory) TcpThread.guest
        (fun thread => thread.vptResp.data.image) wholeRead ∧
      HistoryIndependent answeringTurn QemuCpu.memory (fun cpu => cpu.vptResp.data.image)
        wholeRead := by
  have hboth := responses_independent_iff plainMemory
    (fun guest addr count => length_readBytes guest addr.toNat count) wholeRead (by decide)
  exact ⟨hboth.1.mpr (Or.inr (Or.inl ⟨rfl, rfl⟩)), hboth.2.mpr (Or.inl rfl)⟩

/-- A request of another client, of a type that neither dispatcher knows. -/
def unknownRequest : VpTransfer where
  sockFd := 8
  data := { type := 99, length := 0, addr := 0, data := 0 }

/-- A thread that has served nothing, in front of RAM that is not all zero. -/
def freshThread : TcpThread ByteStore where
  guest := fun _ => 0xAA
  irq := 0
  value := 0
  vptResp := default

/-- From the same start, after no request and after another client's read, the guest is
the same and the answer to the unknown request is not: it holds the word that was read. -/
theorem read_word_leaks_to_other_client :
    (∃ reader next, runFrom (TcpThread.serve plainMemory) freshThread [wholeRead] =
        some reader ∧ reader.guest = freshThread.guest ∧
      reader.serve plainMemory unknownRequest = some next ∧
        next.vptResp.sockFd = 8 ∧ next.vptResp.data.data = 0xAAAAAAAAAAAAAAAA) ∧
    (∃ next, freshThread.serve plainMemory unknownRequest = some next ∧
      next.vptResp.data.data = 0) ∧
    ¬HistoryIndependent (TcpThread.serve plainMemory) TcpThread.guest
      (fun thread => thread.vptResp.data.image) unknownRequest := by
  refine ⟨⟨freshThread.serveRead plainMemory wholeRead, _, rfl, rfl, rfl, rfl, by decide⟩,
    ⟨_, rfl, rfl⟩, fun hindependent => ?_⟩
  have himage := hindependent freshThread freshThread [wholeRead] []
    (freshThread.serveRead plainMemory wholeRead) freshThread _ _ rfl rfl rfl rfl rfl
  exact absurd himage (by decide)

end Platform
end AislabVP
