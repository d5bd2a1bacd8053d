import AislabVP.Qemu.Service
import AislabVP.Vpipc.CallerArray

/-!
# One iteration of the serving thread

An iteration of the loop of `tcp_thread_func` is a `vp_wait` call and the `for` loop
over the transfers it stored.  `vp_wait` skips connections, disconnects and short reads
and keeps the descriptor of each whole request with it, so the thread answers on those
descriptors whatever becomes of `sock_fd` in the same batch.

The iteration sends one answer for each whole request, in event order and to its
sender, if and only if every copy of the batch comes back
(`iteration_answers_each_iff`).
-/

namespace AislabVP
namespace Qemu

open Foundation Vpipc

/-! ## The answer to one message -/

/-- The type that the `switch` gives to the response. -/
def answerType (type : BitVec 64) : VpType :=
  match VpType.ofCode type with
  | some .vpWrite => .vpWriteResp
  | some .vpRead => .vpReadResp
  | some .vpRaiseIrq => .vpRaiseIrqResp
  | _ => .vpError

/-- What has no case of its own is an error. -/
theorem answerType_eq_vpError {type : BitVec 64}
    (hwrite : VpType.ofCode type ≠ some .vpWrite) (hread : VpType.ofCode type ≠ some .vpRead)
    (hraise : VpType.ofCode type ≠ some .vpRaiseIrq) : answerType type = .vpError := by
  unfold answerType
  cases hcode : VpType.ofCode type with
  | none => rfl
  | some known =>
      cases known with
      | vpWrite => exact absurd hcode hwrite
      | vpRead => exact absurd hcode hread
      | vpRaiseIrq => exact absurd hcode hraise
      | vpWriteResp | vpReadResp | vpRaiseIrqResp | vpError => rfl

/-- The response goes to the sender of the request and is of the type that its `switch`
case prescribes. -/
def Answers (request response : VpTransfer) : Prop :=
  response.sockFd = request.sockFd ∧
    response.data.type = (answerType request.data.type).code

/-- The copy of a read or write request is inside `value` and outside the device's own
window.  The callbacks of the window do not turn such a copy away: the client that sent the
request has been accepted, so `sock_fd` is set. -/
def CopyReturns (request : VpTransfer) : Prop :=
  request.data.type = VpType.vpWrite.code ∨ request.data.type = VpType.vpRead.code →
    copyReturns request.data.addr request.data.length = true

instance (request : VpTransfer) : Decidable (CopyReturns request) :=
  inferInstanceAs (Decidable (_ → _))

section Iteration

variable {Guest : Type*} {mem : PhysicalMemory Guest} {thread next : TcpThread Guest}
variable {vpt : VpTransfer}

/-- What one turn of the `for` loop can do. -/
theorem serve_cases (hserve : thread.serve mem vpt = some next) :
    (VpType.ofCode vpt.data.type = some .vpWrite ∧
      copyReturns vpt.data.addr vpt.data.length = true ∧ next = thread.serveWrite mem vpt) ∨
    (VpType.ofCode vpt.data.type = some .vpRead ∧
      copyReturns vpt.data.addr vpt.data.length = true ∧ next = thread.serveRead mem vpt) ∨
    (VpType.ofCode vpt.data.type = some .vpRaiseIrq ∧ next = thread.serveRaiseIrq vpt) ∨
    (answerType vpt.data.type = .vpError ∧ next = thread.serveDefault vpt) := by
  unfold TcpThread.serve at hserve
  split at hserve
  · rename_i htype
    split at hserve
    · rename_i hcopy
      exact Or.inl ⟨htype, hcopy, (Option.some.inj hserve).symm⟩
    · cases hserve
  · rename_i htype
    split at hserve
    · rename_i hcopy
      exact Or.inr (Or.inl ⟨htype, hcopy, (Option.some.inj hserve).symm⟩)
    · cases hserve
  · rename_i htype
    exact Or.inr (Or.inr (Or.inl ⟨htype, (Option.some.inj hserve).symm⟩))
  · rename_i hwrite hread hraise
    exact Or.inr (Or.inr (Or.inr
      ⟨answerType_eq_vpError hwrite hread hraise, (Option.some.inj hserve).symm⟩))

/-- A turn that comes to its end has answered the message. -/
theorem answers_of_serve (hserve : thread.serve mem vpt = some next) :
    Answers vpt next.vptResp := by
  rcases serve_cases hserve with ⟨htype, -, rfl⟩ | ⟨htype, -, rfl⟩ | ⟨htype, rfl⟩ | ⟨herror, rfl⟩
  · exact ⟨rfl, by rw [answerType, htype]; rfl⟩
  · exact ⟨rfl, by rw [answerType, htype]; rfl⟩
  · exact ⟨rfl, by rw [answerType, htype]; rfl⟩
  · exact ⟨rfl, by rw [herror]; rfl⟩

/-- A turn comes to its end exactly when its copy does. -/
theorem serve_eq_some_iff (mem : PhysicalMemory Guest) (thread : TcpThread Guest) :
    (∃ next, thread.serve mem vpt = some next) ↔ CopyReturns vpt := by
  constructor
  · rintro ⟨next, hserve⟩ htype
    rcases serve_cases hserve with ⟨-, hcopy, -⟩ | ⟨-, hcopy, -⟩ | ⟨hraise, -⟩ | ⟨herror, -⟩
    · exact hcopy
    · exact hcopy
    · rcases htype with htype | htype
      · rw [htype] at hraise
        exact absurd hraise (by decide)
      · rw [htype] at hraise
        exact absurd hraise (by decide)
    · rcases htype with htype | htype
      · rw [htype] at herror
        exact absurd herror (by decide)
      · rw [htype] at herror
        exact absurd herror (by decide)
  · intro hreturns
    unfold TcpThread.serve
    split
    · rename_i htype
      rw [if_pos (hreturns (Or.inl (VpType.code_of_ofCode htype)))]
      exact ⟨_, rfl⟩
    · rename_i htype
      rw [if_pos (hreturns (Or.inr (VpType.code_of_ofCode htype)))]
      exact ⟨_, rfl⟩
    · exact ⟨_, rfl⟩
    · exact ⟨_, rfl⟩

/-! ## The `for` loop -/

/-- The loop sends one answer for each message, in order, exactly when all copies come
back. -/
theorem serveBatch_answers_iff (mem : PhysicalMemory Guest) (thread : TcpThread Guest)
    (requests : List VpTransfer) :
    (∃ final sent, thread.serveBatch mem requests = some (final, sent) ∧
      List.Forall₂ Answers requests sent) ↔ ∀ request ∈ requests, CopyReturns request := by
  induction requests generalizing thread with
  | nil => exact iff_of_true ⟨thread, [], rfl, .nil⟩ nofun
  | cons request rest ih =>
      rw [List.forall_mem_cons, ← serve_eq_some_iff mem thread, TcpThread.serveBatch]
      cases hserve : thread.serve mem request with
      | none => simp
      | some next =>
          rw [← ih next]
          simp only [Option.some.injEq, exists_eq', true_and]
          constructor
          · rintro ⟨final, sent, hbatch, hall⟩
            cases hrest : next.serveBatch mem rest with
            | none => simp [hrest] at hbatch
            | some result =>
                rw [hrest] at hbatch
                obtain ⟨rfl, rfl⟩ := Prod.mk.inj (Option.some.inj hbatch)
                cases hall with
                | cons _ hall => exact ⟨_, _, rfl, hall⟩
          · rintro ⟨final, sent, hrest, hall⟩
            exact ⟨final, next.vptResp :: sent, by rw [hrest],
              .cons (answers_of_serve hserve) hall⟩

/-! ## The iteration -/

/-- `vp_wait` on the batch that `epoll_wait` reports, then the `for` loop: the module
record, the thread and the messages sent.  There is no result when the process ends, when
`vp_wait` leaves `vpt[3]`, or when the thread does not come back from a copy. -/
def iteration (mem : PhysicalMemory Guest) (vpm : VpIpcModule) (thread : TcpThread Guest)
    (events : List EpollEvent) : Option (VpIpcModule × TcpThread Guest × List VpTransfer) :=
  let wait := vpWait .qemu vpm (some events)
  if wait.exited ∨ callerArrayLength < wait.vpt.length then none
  else (thread.serveBatch mem wait.vpt).map fun result => (wait.vpm, result)

/-- A batch without failing calls does not end the process. -/
theorem serverLoop_live {vpm : VpIpcModule} {events : List EpollEvent}
    (hlive : ∀ event ∈ events, event.endsProcess vpm.serverFd = false) :
    (serverLoop vpm events).exited = false := by
  induction events generalizing vpm with
  | nil => rfl
  | cons event rest ih =>
      rw [List.forall_mem_cons] at hlive
      have hturn : (serverEvent vpm event).exited = false := by
        rw [exited_serverEvent]
        exact hlive.1
      have hserver := (serverEvent_record vpm event).2.1
      rw [serverLoop, hturn]
      refine ih fun later hlater => ?_
      rw [hserver]
      exact hlive.2 later hlater

/-- One iteration sends exactly one message for each whole request, in event order and
on the descriptor that the request was read from, and nothing else, if and only if
every copy of the batch comes back. -/
theorem iteration_answers_each_iff (mem : PhysicalMemory Guest) (vpm : VpIpcModule)
    (thread : TcpThread Guest) (events : List EpollEvent) (hserver : vpm.type = .server)
    (hlive : ∀ event ∈ events, event.endsProcess vpm.serverFd = false)
    (hfew : (wholeRequests vpm.serverFd events).length ≤ callerArrayLength) :
    (∃ vpm' final sent, iteration mem vpm thread events = some (vpm', final, sent) ∧
      List.Forall₂ Answers (wholeRequests vpm.serverFd events) sent) ↔
        ∀ request ∈ wholeRequests vpm.serverFd events, CopyReturns request := by
  have hiteration : iteration mem vpm thread events =
      (thread.serveBatch mem (wholeRequests vpm.serverFd events)).map
        fun result => ((serverLoop vpm events).vpm, result) := by
    simp [iteration, vpWait_of_server .qemu hserver, serverLoop_live hlive, vpt_serverLoop,
      Nat.not_lt.mpr hfew]
  rw [← serveBatch_answers_iff mem thread, hiteration]
  constructor
  · rintro ⟨vpm', final, sent, hmap, hall⟩
    obtain ⟨result, hbatch, hresult⟩ := Option.map_eq_some_iff.mp hmap
    obtain ⟨-, rfl⟩ := Prod.mk.inj hresult
    exact ⟨final, sent, hbatch, hall⟩
  · rintro ⟨final, sent, hbatch, hall⟩
    exact ⟨_, final, sent, by rw [hbatch]; rfl, hall⟩

end Iteration

/-! ## Two batches -/

/-- A server that is connected on descriptor 5. -/
def servingModule : VpIpcModule where
  type := .server
  epollFd := 3
  sockFd := 5
  serverFd := 4

/-- An interrupt request and an unknown message, with a new connection, a disconnect and
a short read between them. -/
def mixedBatch : List EpollEvent :=
  [ EpollEvent.input 6 (.piece (Piece.whole
      { type := VpType.vpRaiseIrq.code, length := 0, addr := 0, data := 1 })),
    EpollEvent.connection servingModule 8,
    EpollEvent.input 7 .closed,
    EpollEvent.input 9 (.piece { bytes := [0], nonempty := by decide, fits := by decide }),
    EpollEvent.input 5 (.piece (Piece.whole
      { type := 99, length := 0, addr := 0, data := 0 })) ]

theorem iteration_answers_mixed_batch :
    ∃ vpm' final sent, iteration plainMemory servingModule idleThread mixedBatch =
        some (vpm', final, sent) ∧
      List.Forall₂ Answers (wholeRequests servingModule.serverFd mixedBatch) sent :=
  (iteration_answers_each_iff plainMemory servingModule idleThread mixedBatch rfl (by decide)
    (by decide)).mpr (by decide)

/-- A read request for the first word of the device's own window. -/
def ownWindowRead : VpTransferData where
  type := VpType.vpRead.code
  length := 4
  addr := mmioAddr
  data := 0

/-- The thread waits for the mutex it holds, and the one request of the batch stays
without an answer. -/
theorem own_window_read_is_not_answered :
    let events := [EpollEvent.input 5 (.piece (Piece.whole ownWindowRead))]
    wholeRequests servingModule.serverFd events = [{ sockFd := 5, data := ownWindowRead }] ∧
      ∀ (Guest : Type) (mem : PhysicalMemory Guest) (thread : TcpThread Guest),
        ¬∃ vpm' final sent, iteration mem servingModule thread events =
            some (vpm', final, sent) ∧
          List.Forall₂ Answers (wholeRequests servingModule.serverFd events) sent := by
  intro events
  refine ⟨rfl, fun Guest mem thread hanswered => ?_⟩
  obtain ⟨vpm', final, sent, hiteration, -⟩ := hanswered
  have hstuck : iteration mem servingModule thread events = none := rfl
  rw [hstuck] at hiteration
  cases hiteration

end Qemu
end AislabVP
