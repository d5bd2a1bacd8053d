import AislabVP.Foundation.Exchange
import AislabVP.Platform.SelfLock
import AislabVP.Qemu.Iteration
import AislabVP.SystemC.Dispatcher

/-!
# Messages that answer messages

`tcp_thread_func` and `thread_process` answer every message they take.  Neither `switch`
has a case for the four response types, so a response that reaches a dispatcher is
answered `VP_ERROR` by its `default` branch, and the `VP_ERROR` is answered in the same
way by the other one.

With no `vp_b_transfer` call to receive them, the two are an exchange in the sense of
`Foundation.Exchange`.  What stops a dispatcher is a request that it cannot carry out: a
copy that leads `tcp_thread_func` back into the window of the device, and a transaction
that the target of `thread_process` refuses.  The exchange settles exactly when the
queues are `CalmQueues` (`settles_iff_calmQueues`).
-/

namespace AislabVP
namespace Platform

open Foundation Vpipc Qemu SystemC

/-! ## The dispatchers -/

/-- The message is of a response type. -/
def isResponse (message : VpTransferData) : Bool :=
  match VpType.ofCode message.type with
  | some .vpWriteResp | some .vpReadResp | some .vpRaiseIrqResp | some .vpError => true
  | some .vpWrite | some .vpRead | some .vpRaiseIrq | none => false

/-- `tcp_thread_func` comes back from serving the message: no copy leads into the window. -/
def threadAnswers (message : VpTransferData) : Bool :=
  decide (message.type = VpType.vpWrite.code ∨ message.type = VpType.vpRead.code →
    namesWindow message.addr message.length = false)

/-- `thread_process` comes back from serving the message: the target does not refuse its
transaction. -/
def processAnswers (message : VpTransferData) : Bool :=
  match VpType.ofCode message.type with
  | some .vpWrite => decide (Accepts (writeTransaction message))
  | some .vpRead => decide (Accepts (readTransaction message))
  | _ => true

section Traffic

variable {Guest : Type*}

/-- The dispatchers with the messages in flight to each of them. -/
structure Traffic (Guest : Type*) where
  thread : TcpThread Guest
  cpu : QemuCpu
  toThread : List VpTransferData
  toProcess : List VpTransferData

/-- The first party is `tcp_thread_func`, the second one `thread_process`. -/
def Traffic.queue (s : Traffic Guest) : Party → List VpTransferData
  | .first => s.toThread
  | .second => s.toProcess

/-- What `tcp_thread_func` can be after a message, and what it sends. -/
inductive ThreadTurn (mem : PhysicalMemory Guest) (thread : TcpThread Guest)
    (message : VpTransferData) : TcpThread Guest → VpTransferData → Prop
  | served {fd : Int} {next : TcpThread Guest}
      (hserve : thread.serve mem { sockFd := fd, data := message } = some next) :
      ThreadTurn mem thread message next next.vptResp.data
  -- A copy of more than eight bytes leaves `value`.  If the thread goes on, then to the
  -- answer that the `switch` prescribes.
  | overrun {next : TcpThread Guest} {resp : VpTransferData}
      (hlong : sizeofValue < message.length.toNat) (hanswers : threadAnswers message = true)
      (htype : resp.type = (answerType message.type).code) :
      ThreadTurn mem thread message next resp

/-- One dispatcher takes a message and sends its answer. -/
inductive TrafficStep (mem : PhysicalMemory Guest) : Traffic Guest → Party → Traffic Guest → Prop
  | thread {s : Traffic Guest} {message resp : VpTransferData} {rest : List VpTransferData}
      {next : TcpThread Guest} (hqueue : s.toThread = message :: rest)
      (hturn : ThreadTurn mem s.thread message next resp) :
      TrafficStep mem s .first
        { s with thread := next, toThread := rest, toProcess := s.toProcess ++ [resp] }
  | process {s : Traffic Guest} {message : VpTransferData} {rest : List VpTransferData}
      {fd : Int} {next : QemuCpu} {resp : VpTransfer} (hqueue : s.toProcess = message :: rest)
      (hdispatch : s.cpu.dispatch { sockFd := fd, data := message } = (next, .ok resp)) :
      TrafficStep mem s .second
        { s with cpu := next, toProcess := rest, toThread := s.toThread ++ [resp.data] }

/-! ## What a turn sends -/

variable {mem : PhysicalMemory Guest} {thread next : TcpThread Guest}
variable {message resp : VpTransferData}

theorem isResponse_of_answerType {type : BitVec 64}
    (htype : resp.type = (answerType type).code) : isResponse resp = true := by
  unfold isResponse
  rw [htype, VpType.ofCode_code, answerType]
  cases VpType.ofCode type with
  | none => rfl
  | some type => cases type <;> rfl

/-- A response is left to the `default` branches, which answer it. -/
theorem answers_of_isResponse (hresponse : isResponse message = true) :
    threadAnswers message = true ∧ processAnswers message = true := by
  have hcopy : ¬(message.type = VpType.vpWrite.code ∨ message.type = VpType.vpRead.code) := by
    rintro (hcode | hcode)
    · simp [isResponse, hcode] at hresponse
    · simp [isResponse, hcode] at hresponse
  refine ⟨decide_eq_true fun hcode => absurd hcode hcopy, ?_⟩
  unfold isResponse at hresponse
  unfold processAnswers
  split
  · rename_i htype
    rw [htype] at hresponse
    cases hresponse
  · rename_i htype
    rw [htype] at hresponse
    cases hresponse
  · rfl

/-- A turn of `tcp_thread_func` answers a message that does not lead into the window, and
answers it with a response. -/
theorem ThreadTurn.spec (hturn : ThreadTurn mem thread message next resp) :
    threadAnswers message = true ∧ isResponse resp = true := by
  cases hturn with
  | served hserve =>
      refine ⟨decide_eq_true fun hcode => ?_, isResponse_of_answerType (answers_of_serve hserve).2⟩
      have hcopy := (serve_eq_some_iff mem thread).mp ⟨_, hserve⟩ hcode
      exact ((copyReturns_iff _ _).mp hcopy).2
  | overrun hlong hanswers htype => exact ⟨hanswers, isResponse_of_answerType htype⟩

theorem exists_threadTurn (mem : PhysicalMemory Guest) (thread : TcpThread Guest)
    (hanswers : threadAnswers message = true) :
    ∃ next resp, ThreadTurn mem thread message next resp := by
  by_cases hshort : message.length.toNat ≤ sizeofValue
  · have hreturns : CopyReturns { sockFd := thread.vptResp.sockFd, data := message } :=
      fun hcode => (copyReturns_iff _ _).mpr ⟨hshort, of_decide_eq_true hanswers hcode⟩
    obtain ⟨next, hserve⟩ := (serve_eq_some_iff mem thread).mpr hreturns
    exact ⟨next, _, .served hserve⟩
  · exact ⟨thread, { message with type := (answerType message.type).code },
      .overrun (Nat.not_le.mp hshort) hanswers rfl⟩

theorem processAnswers_iff (vpt : VpTransfer) :
    processAnswers vpt.data = true ↔ ∀ trans ∈ requestTransaction vpt, Accepts trans := by
  unfold processAnswers requestTransaction
  cases VpType.ofCode vpt.data.type with
  | none => simp
  | some type => cases type <;> simp

/-- `thread_process` answers only when the target does not refuse the transaction, and
answers with a response. -/
theorem dispatch_ok_spec {cpu after : QemuCpu} {vpt answer : VpTransfer}
    (hdispatch : cpu.dispatch vpt = (after, .ok answer)) :
    processAnswers vpt.data = true ∧ isResponse answer.data = true := by
  constructor
  · exact (processAnswers_iff vpt).mpr
      ((dispatch_answers_iff cpu vpt).mp ⟨after, answer, hdispatch⟩)
  · obtain ⟨-, hwrite | hread | hdefault⟩ := dispatch_ok_cases hdispatch
    · obtain ⟨-, -, rfl⟩ := hwrite
      rfl
    · obtain ⟨-, -, data, rfl⟩ := hread
      rfl
    · obtain ⟨-, rfl⟩ := hdefault
      rfl

theorem exists_dispatch (cpu : QemuCpu) {vpt : VpTransfer}
    (hanswers : processAnswers vpt.data = true) :
    ∃ after answer, cpu.dispatch vpt = (after, .ok answer) :=
  (dispatch_answers_iff cpu vpt).mpr ((processAnswers_iff vpt).mp hanswers)

/-! ## The exchange -/

/-- The two dispatchers as an exchange. -/
def dispatchers (mem : PhysicalMemory Guest) : Exchange (Traffic Guest) VpTransferData where
  queue := Traffic.queue
  step := TrafficStep mem
  answerable := fun
    | .first => threadAnswers
    | .second => processAnswers
  isReply := isResponse
  taken := by
    intro s party next hstep
    cases hstep with
    | thread hqueue hturn =>
        obtain ⟨hanswers, hresponse⟩ := hturn.spec
        exact ⟨_, _, _, hqueue, hanswers, hresponse, rfl, rfl⟩
    | process hqueue hdispatch =>
        obtain ⟨hanswers, hresponse⟩ := dispatch_ok_spec hdispatch
        exact ⟨_, _, _, hqueue, hanswers, hresponse, rfl, rfl⟩
  enabled := by
    intro s party message rest hqueue hanswers
    cases party with
    | first =>
        obtain ⟨next, resp, hturn⟩ := exists_threadTurn mem s.thread hanswers
        exact ⟨_, .thread hqueue hturn⟩
    | second =>
        obtain ⟨after, answer, hdispatch⟩ := exists_dispatch s.cpu
          (show processAnswers (VpTransfer.data { sockFd := 0, data := message }) = true
            from hanswers)
        exact ⟨_, .process hqueue hdispatch⟩
  reply_answerable := by
    intro party message hresponse
    cases party with
    | first => exact (answers_of_isResponse hresponse).1
    | second => exact (answers_of_isResponse hresponse).2

/-- What the queues are when no storm can come of them.  Neither dispatcher meets a
response before a request that stops it, and if a dispatcher can answer its first message
then a request is on its way to the other one that stops that one. -/
structure CalmQueues (toThread toProcess : List VpTransferData) : Prop where
  threadMeets : ∀ message ∈ toThread.takeWhile threadAnswers, isResponse message = false
  processMeets : ∀ message ∈ toProcess.takeWhile processAnswers, isResponse message = false
  processStops : toThread.takeWhile threadAnswers ≠ [] →
    ∃ message ∈ toProcess, processAnswers message = false
  threadStops : toProcess.takeWhile processAnswers ≠ [] →
    ∃ message ∈ toThread, threadAnswers message = false

/-- With no `vp_b_transfer` call, every run of the dispatchers is finite and answers no
response if and only if the queues are calm, whatever the dispatchers' own states are. -/
theorem settles_iff_calmQueues (mem : PhysicalMemory Guest) (s : Traffic Guest) :
    (dispatchers mem).Settles s ↔ CalmQueues s.toThread s.toProcess := by
  rw [Exchange.settles_iff_calm]
  constructor
  · intro hcalm
    exact
      { threadMeets := (hcalm .first).1
        processMeets := (hcalm .second).1
        processStops := (hcalm .first).2
        threadStops := (hcalm .second).2 }
  · intro hcalm party
    cases party with
    | first => exact ⟨hcalm.threadMeets, hcalm.processStops⟩
    | second => exact ⟨hcalm.processMeets, hcalm.threadStops⟩

/-- A stray error. -/
def strayError : VpTransferData where
  type := VpType.vpError.code
  length := vpFail
  addr := 0
  data := 0

end Traffic

/-- A stray error is in flight to `tcp_thread_func`, and nothing else. -/
def strayErrorTraffic : Traffic ByteStore where
  thread := idleThread
  cpu := { memory := { mem := fun _ => 0 }, vptResp := default }
  toThread := [strayError]
  toProcess := []

/-- The one message is answered for ever. -/
theorem stray_error_storms :
    EndlessFrom (dispatchers plainMemory).Next strayErrorTraffic ∧
      ¬(dispatchers plainMemory).Settles strayErrorTraffic := by
  have hbusy : (dispatchers plainMemory).Busy strayErrorTraffic := by
    refine ⟨fun party message hmem => ?_, .first, List.cons_ne_nil _ _⟩
    cases party with
    | first =>
        rw [List.mem_singleton.mp hmem]
        exact (by decide : threadAnswers strayError = true)
    | second => cases hmem
  exact ⟨hbusy.endless, fun hsettles => hsettles.finite hbusy.endless⟩

end Platform
end AislabVP
