import AislabVP.Foundation.AtomicObject
import AislabVP.Platform.Dma
import AislabVP.Platform.Exclusive
import AislabVP.Platform.Interleaving

/-!
# The platform as two atomic objects

Seen from the guest, the platform is the SystemC side behind `mmio_bus_read` and
`mmio_bus_write`; seen from an initiator, it is QEMU behind `b_transport`.  Each
side is an object with one operation at a time: a region callback that runs alone
(`Wiring.callAlone`), a blocking transfer that runs alone (`Wiring.transferAlone`).

The run of the two processes has neither of these: calls of many vCPUs wait for the
mutex, messages wait in the channels, the poll comes in between.  As long as no
requests cross, it cannot be told from the two objects
(`linearizable_of_noCrossing`): each call takes effect at once, in the loop body of the
peer's dispatcher, some time between its invocation and its return.

The build without DMA has no crossings.  There the guest sees, under any
schedule and from any number of vCPUs, one array of bytes, if its accesses are at
word offsets (`linearizable_of_noDma`).
-/

namespace AislabVP
namespace Platform

open Foundation Vpipc Qemu SystemC

/-- Who calls: a vCPU, or the initiator behind `QEMU_CPU::b_transport`. -/
inductive Requester (ι : Type*) where
  | vcpu (index : ι)
  | initiator
  deriving DecidableEq

theorem Requester.vcpu_ne {ι : Type*} {i j : ι} (hne : j ≠ i) : Requester.vcpu j ≠ .vcpu i :=
  fun hsame => hne (Requester.vcpu.inj hsame)

theorem Requester.initiator_ne {ι : Type*} (i : ι) : Requester.initiator ≠ .vcpu i := nofun

/-- What the parties ask for. -/
abbrev PlatformInput := MmioCall ⊕ VpTransferData

/-- What the parties get: the value of a callback, or a response. -/
abbrev PlatformOutput := Option (BitVec 64) ⊕ VpTransferData

/-- What a region callback returns: `mmio_bus_read` the field `data` of the message it
received, `mmio_bus_write` nothing. -/
def callbackValue (request response : VpTransferData) : Option (BitVec 64) :=
  if request.type = VpType.vpRead.code then some response.data else none

section Objects

variable {ι Guest : Type*} (wiring : Wiring Guest)

/-- A region callback that runs alone. -/
def Wiring.callAlone (cpu : QemuCpu) : MmioCall → Option (QemuCpu × Option (BitVec 64))
  | .read offset size =>
      match mmioBusRead wiring.server (vpBTransfer wiring.client) cpu offset size with
      | (next, some value) => some (next, some value)
      | (_, none) => none
  | .write offset value size =>
      match mmioBusWrite wiring.server (vpBTransfer wiring.client) cpu offset value size with
      | (next, some ()) => some (next, none)
      | (_, none) => none

/-- A blocking transfer to QEMU that runs alone. -/
def Wiring.transferAlone (thread : TcpThread Guest) (request : VpTransferData) :
    Option (TcpThread Guest × VpTransferData) :=
  match vpBTransferToQemu wiring.mem wiring.server wiring.server.sockFd thread request with
  | (next, some response) => some (next, response)
  | (_, none) => none

/-- Both sides of the platform, one operation at a time. -/
def Wiring.alone : QemuCpu × TcpThread Guest → PlatformInput →
    Option ((QemuCpu × TcpThread Guest) × PlatformOutput) :=
  runBoth wiring.callAlone wiring.transferAlone

/-- What a step shows of the calls.  The value of a callback is fixed when `recv` returns;
unlocking the mutex does not change it. -/
def callEvents (s : PlatformState ι Guest) :
    Action ι → List (ObjectEvent (Requester ι) PlatformInput PlatformOutput)
  | .vcpuCall i call => [.invoke (.vcpu i) (.inl call)]
  | .vcpuRecv i =>
      match s.vcpu i, s.toQemu with
      | .receiving request, packet :: _ =>
          [.respond (.vcpu i) (.inl (callbackValue request.data packet.data))]
      | _, _ => []
  | .dmaCall stack transaction =>
      match slaveRequest stack transaction with
      | some data => [.invoke .initiator (.inr data)]
      | none => []
  | .dmaRecv =>
      match s.toSystemC with
      | packet :: _ => [.respond .initiator (.inr packet.data)]
      | [] => []
  | .vcpuLock _ | .vcpuSend _ | .vcpuUnlock _ | .tcpLock | .tcpPoll _ | .tcpServe | .scPoll _
  | .scServe => []

/-- The calls and returns of a run. -/
def callHistory [DecidableEq ι] (start : PlatformState ι Guest) (actions : List (Action ι)) :
    List (ObjectEvent (Requester ι) PlatformInput PlatformOutput) :=
  historyFrom (step wiring) callEvents start actions

end Objects

/-! ## The status of the calls -/

/-- The status of the vCPU that waits in `recv`. -/
def Call.vcpuStatus (call : MmioCall) : Call → ProcessStatus PlatformInput PlatformOutput
  | .answered request response => .done (.inl (callbackValue request.data response))
  | .idle | .requested _ | .taken _ => .pending (.inl call)

/-- The status of the initiator. -/
def Call.initiatorStatus : Call → ProcessStatus PlatformInput PlatformOutput
  | .idle => .idle
  | .requested request => .pending (.inr request.data)
  | .taken request => .pending (.inr request.data)
  | .answered _ response => .done (.inr response)

/-- The status of a vCPU in a phase, when the MMIO call is `mmio`. -/
def VcpuPhase.Shows (mmio : Call) :
    VcpuPhase → ProcessStatus PlatformInput PlatformOutput → Prop
  | .idle, status => status = .idle
  | .wantsLock data, status => ∃ call : MmioCall, data = call.request ∧
      status = .pending (.inl call)
  | .sending request, status => ∃ call : MmioCall, request.data = call.request ∧
      status = .pending (.inl call)
  | .receiving request, status => ∃ call : MmioCall, request.data = call.request ∧
      status = mmio.vcpuStatus call
  | .unlocking, status => status = .idle

/-- The platform and the two objects are in the same state. -/
structure ShowsAs {ι Guest : Type*} (s : PlatformState ι Guest) (mmio dma : Call)
    (now : AtomicState (Requester ι) (QemuCpu × TcpThread Guest) PlatformInput PlatformOutput) :
    Prop where
  coherent : Coherent s mmio dma
  object : now.object = (s.cpu, s.thread)
  vcpu : ∀ i, (s.vcpu i).Shows mmio (now.status (.vcpu i))
  initiator : now.status .initiator = dma.initiatorStatus

section Simulation

variable {ι Guest : Type*} {wiring : Wiring Guest}

/-! ## Operations that run alone -/

theorem callbackValue_read (offset : BitVec 64) (size : BitVec 32) (response : VpTransferData) :
    callbackValue (MmioCall.read offset size).request response = some response.data := rfl

theorem callbackValue_write (offset value : BitVec 64) (size : BitVec 32)
    (response : VpTransferData) :
    callbackValue (MmioCall.write offset value size).request response = none := rfl

/-- A turn of `thread_process` on the request of a callback is the callback. -/
theorem callAlone_of_dispatch {cpu next : QemuCpu} {call : MmioCall} {resp : VpTransfer}
    (hserve : cpu.dispatch (wiring.systemCVpt call.request) = (next, .ok resp)) :
    wiring.callAlone cpu call = some (next, callbackValue call.request resp.data) := by
  cases call with
  | read offset size =>
      rw [Wiring.callAlone,
        mmioBusRead_of_dispatch wiring.connected wiring.isClient hserve, callbackValue_read]
  | write offset value size =>
      rw [Wiring.callAlone,
        mmioBusWrite_of_dispatch wiring.connected wiring.isClient hserve, callbackValue_write]

/-- A turn of `tcp_thread_func` on a request is the transfer. -/
theorem transferAlone_of_serve {thread next : TcpThread Guest} {request : VpTransferData}
    (hserve : thread.serve wiring.mem (wiring.qemuVpt request) = some next) :
    wiring.transferAlone thread request = some (next, next.vptResp.data) := by
  have hbatch : thread.serveBatch wiring.mem [wiring.qemuVpt request] =
      some (next, [next.vptResp]) := by
    rw [TcpThread.serveBatch, hserve]
    rfl
  simp only [Wiring.transferAlone, vpBTransferToQemu, vpWait_qemuVpt, hbatch, ofImage_image]

/-! ## Frames -/

variable {s : PlatformState ι Guest} {mmio dma : Call}
  {now : AtomicState (Requester ι) (QemuCpu × TcpThread Guest) PlatformInput PlatformOutput}

/-- Only the vCPU that waits in `recv` looks at the call. -/
theorem VcpuPhase.Shows.of_not_waiting {phase : VcpuPhase}
    {status : ProcessStatus PlatformInput PlatformOutput} (hshows : phase.Shows mmio status)
    (hwaiting : phase.waiting = none) (other : Call) : phase.Shows other status := by
  cases phase with
  | idle | wantsLock | sending | unlocking => exact hshows
  | receiving => cases hwaiting

/-- Until the answer is there, it makes no difference where the request is. -/
theorem VcpuPhase.Shows.of_same {phase : VcpuPhase} {other : Call}
    {status : ProcessStatus PlatformInput PlatformOutput} (hshows : phase.Shows mmio status)
    (hsame : ∀ call, mmio.vcpuStatus call = other.vcpuStatus call) : phase.Shows other status := by
  cases phase with
  | idle | wantsLock | sending | unlocking => exact hshows
  | receiving request =>
      obtain ⟨call, hrequest, hstatus⟩ := hshows
      exact ⟨call, hrequest, hstatus.trans (hsame call)⟩

/-- While a vCPU has the mutex no other one waits. -/
theorem not_waiting_of_ne (hlock : LockHeld s.owner s.vcpu s.tcp) {i j : ι} (hne : j ≠ i)
    (hholds : (s.vcpu i).holdsLock = true) : (s.vcpu j).waiting = none := by
  cases hphase : s.vcpu j with
  | idle | wantsLock | sending | unlocking => rfl
  | receiving request =>
      have howner := (hlock.vcpu i).mp hholds
      have hother := (hlock.vcpu j).mp (by rw [hphase]; rfl)
      cases howner.symm.trans hother
      exact absurd rfl hne

/-- The vCPU whose call the dispatcher has. -/
theorem exists_receiving_of_caller (h : Coherent s mmio dma) {request : Packet}
    (hcaller : mmio.caller = some request) : ∃ i, s.vcpu i = .receiving request :=
  (receiving_iff_current h.lock request).mpr
    (VcpuPhase.eq_receiving_of_waiting (h.linked.vcpu.trans hcaller))

/-- A step that neither begins nor ends a call nor executes one shows nothing. -/
theorem ShowsAs.silent {next : PlatformState ι Guest} {mmio' dma' : Call}
    (h : ShowsAs s mmio dma now) (hnext : Coherent next mmio' dma')
    (hcpu : next.cpu = s.cpu) (hthread : next.thread = s.thread)
    (hvcpu : ∀ i, (next.vcpu i).Shows mmio' (now.status (.vcpu i)))
    (hdma : dma'.initiatorStatus = dma.initiatorStatus) : ShowsAs next mmio' dma' now where
  coherent := hnext
  object := by rw [h.object, hcpu, hthread]
  vcpu := hvcpu
  initiator := h.initiator.trans hdma.symm

variable [DecidableEq ι]

/-- A vCPU moves to another phase that shows the same. -/
theorem shows_update {vcpu : ι → VcpuPhase} {other : Call} {i : ι} {phase : VcpuPhase}
    {status : Requester ι → ProcessStatus PlatformInput PlatformOutput}
    (hself : phase.Shows other (status (.vcpu i)))
    (hothers : ∀ j, j ≠ i → (vcpu j).Shows other (status (.vcpu j))) (j : ι) :
    (Function.update vcpu i phase j).Shows other (status (.vcpu j)) := by
  by_cases hsame : j = i
  · subst hsame
    rw [Function.update_self]
    exact hself
  · rw [Function.update_of_ne hsame]
    exact hothers j hsame

/-! ## Steps -/

variable (wiring)

/-- A vCPU calls. -/
theorem showsAs_vcpuCall (h : ShowsAs s mmio dma now) {i : ι} (call : MmioCall)
    (hphase : s.vcpu i = .idle) :
    ∃ after, Atomic wiring.alone now [.invoke (.vcpu i) (.inl call)] after ∧
      ShowsAs { s with vcpu := Function.update s.vcpu i (.wantsLock call.request) }
        mmio dma after := by
  have hidle : now.status (.vcpu i) = .idle := by
    have hshows := h.vcpu i
    rw [hphase] at hshows
    exact hshows
  refine ⟨_, (Atomic.refl now).invoke (.vcpu i) (.inl call) hidle,
    coherent_vcpuCall h.coherent call hphase, h.object, ?_, ?_⟩
  · refine shows_update ⟨call, rfl, move_status_self ..⟩ fun j hne => ?_
    rw [move_status_of_ne (Requester.vcpu_ne hne)]
    exact h.vcpu j
  · rw [move_status_of_ne (Requester.initiator_ne i)]
    exact h.initiator

/-- The vCPU gets its answer. -/
theorem showsAs_vcpuRecv (h : ShowsAs s mmio dma now) {i : ι} {request packet : Packet}
    {rest : List Packet} (hphase : s.vcpu i = .receiving request)
    (hchannel : s.toQemu = packet :: rest) :
    ∃ after,
      Atomic wiring.alone now
        [.respond (.vcpu i) (.inl (callbackValue request.data packet.data))] after ∧
      ShowsAs
        { s with
          vcpu := Function.update s.vcpu i .unlocking
          toQemu := rest
          log := { s.log with
            returnedToQemu := s.log.returnedToQemu ++ [(request, packet)] } }
        .idle dma after := by
  have hcurrent := (current_of_holdsLock h.coherent.lock hphase rfl).2
  have hcaller : mmio.caller = some request := by
    rw [← h.coherent.linked.vcpu, PlatformState.current, hcurrent]
    rfl
  obtain ⟨response, rfl, rfl, -⟩ := answered_of_recv hcaller h.coherent.linked.apart
    (h.coherent.linked.toQemu.symm.trans hchannel)
  have hdone : now.status (.vcpu i) = .done (.inl (callbackValue request.data response)) := by
    have hshows := h.vcpu i
    rw [hphase] at hshows
    obtain ⟨call, -, hstatus⟩ := hshows
    exact hstatus
  refine ⟨_, (Atomic.refl now).respond (.vcpu i) _ hdone,
    coherent_vcpuRecv h.coherent hphase hchannel, h.object, ?_, ?_⟩
  · refine shows_update (move_status_self ..) fun j hne => ?_
    rw [move_status_of_ne (Requester.vcpu_ne hne)]
    exact (h.vcpu j).of_not_waiting
      (not_waiting_of_ne h.coherent.lock hne (by rw [hphase]; rfl)) .idle
  · rw [move_status_of_ne (Requester.initiator_ne i)]
    exact h.initiator

/-- The turn of `thread_process` is the moment at which the callback takes effect. -/
theorem showsAs_scServe (h : ShowsAs s mmio dma now) {packet : Packet} {cpu : QemuCpu}
    {resp : VpTransfer} (hfree : s.initiator = none) (hphase : s.dispatcher = some packet)
    (hserve : s.cpu.dispatch (wiring.systemCVpt packet.data) = (cpu, .ok resp)) :
    ∃ after, Atomic wiring.alone now [] after ∧
      ShowsAs
        { s with
          dispatcher := none
          cpu := cpu
          toQemu := s.toQemu ++ [packet.answerWith resp.data]
          log := { s.log with
            executed := s.log.executed ++ [{ packet := packet, response := resp.data }] } }
        (.answered packet resp.data) dma after := by
  obtain ⟨rfl, hnext⟩ := coherent_scServe h.coherent hfree hphase cpu resp.data
  obtain ⟨i, hwaits⟩ := exists_receiving_of_caller h.coherent rfl
  have hshows := h.vcpu i
  rw [hwaits] at hshows
  obtain ⟨call, hrequest, hpending⟩ := hshows
  rw [hrequest] at hserve
  have hrun : wiring.alone now.object (.inl call) =
      some ((cpu, s.thread), .inl (callbackValue call.request resp.data)) := by
    rw [h.object, Wiring.alone, runBoth, callAlone_of_dispatch hserve]
    rfl
  refine ⟨_, (Atomic.refl now).perform (.vcpu i) (.inl call) _ _ hpending hrun, hnext, rfl,
    fun j => ?_, ?_⟩
  · by_cases hsame : j = i
    · subst hsame
      show (s.vcpu j).Shows _ _
      rw [hwaits]
      refine ⟨call, hrequest, ?_⟩
      rw [Call.vcpuStatus, hrequest]
      exact effect_status_self ..
    · rw [effect_status_of_ne (Requester.vcpu_ne hsame)]
      exact (h.vcpu j).of_not_waiting
        (not_waiting_of_ne h.coherent.lock hsame (by rw [hwaits]; rfl)) _
  · rw [effect_status_of_ne (Requester.initiator_ne i)]
    exact h.initiator

/-- The turn of `tcp_thread_func` is the moment at which the transfer takes effect. -/
theorem showsAs_tcpServe (h : ShowsAs s mmio dma now) {packet : Packet}
    {thread : TcpThread Guest} (hphase : s.tcp = .serving packet)
    (hserve : s.thread.serve wiring.mem (wiring.qemuVpt packet.data) = some thread) :
    ∃ after, Atomic wiring.alone now [] after ∧
      ShowsAs
        { s with
          owner := none
          tcp := .condWait
          thread := thread
          toSystemC := s.toSystemC ++ [packet.answerWith thread.vptResp.data]
          log := { s.log with
            servedByTcp := s.log.servedByTcp ++
              [{ packet := packet, response := thread.vptResp.data }] } }
        mmio (.answered packet thread.vptResp.data) after := by
  obtain ⟨rfl, hnext⟩ := coherent_tcpServe h.coherent hphase thread thread.vptResp.data
  have hpending : now.status .initiator = .pending (.inr packet.data) := h.initiator
  have hrun : wiring.alone now.object (.inr packet.data) =
      some ((s.cpu, thread), .inr thread.vptResp.data) := by
    rw [h.object, Wiring.alone, runBoth, transferAlone_of_serve hserve]
    rfl
  refine ⟨_, (Atomic.refl now).perform .initiator (.inr packet.data) _ _ hpending hrun, hnext,
    rfl, fun j => ?_, effect_status_self ..⟩
  rw [effect_status_of_ne (Requester.initiator_ne j).symm]
  exact h.vcpu j

/-- An initiator calls. -/
theorem showsAs_dmaCall (h : ShowsAs s mmio dma now) {request : Packet}
    (hfree : s.initiator = none) (hguard : ¬s.Unanswered .qemu)
    (hrequest : request.origin = .request .systemC s.log.sentBySystemC.length) :
    ∃ after, Atomic wiring.alone now [.invoke .initiator (.inr request.data)] after ∧
      ShowsAs
        { s with
          initiator := some request
          toQemu := s.toQemu ++ [request]
          log := { s.log with sentBySystemC := s.log.sentBySystemC ++ [request] } }
        mmio (.requested request) after := by
  obtain ⟨rfl, hnext⟩ := coherent_dmaCall h.coherent hfree hguard hrequest
  refine ⟨_, (Atomic.refl now).invoke .initiator (.inr request.data) h.initiator, hnext,
    h.object, fun j => ?_, move_status_self ..⟩
  rw [move_status_of_ne (Requester.initiator_ne j).symm]
  exact h.vcpu j

/-- The initiator gets its answer. -/
theorem showsAs_dmaRecv (h : ShowsAs s mmio dma now) {request packet : Packet}
    {rest : List Packet} (hphase : s.initiator = some request)
    (hchannel : s.toSystemC = packet :: rest) :
    ∃ after, Atomic wiring.alone now [.respond .initiator (.inr packet.data)] after ∧
      ShowsAs
        { s with
          initiator := none
          toSystemC := rest
          log := { s.log with
            returnedToSystemC := s.log.returnedToSystemC ++ [(request, packet)] } }
        mmio .idle after := by
  have hcaller : dma.caller = some request := h.coherent.linked.initiator.symm.trans hphase
  obtain ⟨response, rfl, rfl, -⟩ := answered_of_recv hcaller h.coherent.linked.apart.symm
    (h.coherent.linked.toSystemC.symm.trans hchannel)
  refine ⟨_, (Atomic.refl now).respond .initiator _ h.initiator,
    coherent_dmaRecv h.coherent hphase hchannel, h.object, fun j => ?_, move_status_self ..⟩
  rw [move_status_of_ne (Requester.initiator_ne j).symm]
  exact h.vcpu j

/-- Every step without a crossing is a step of the two objects, or none. -/
theorem showsAs_step {next : PlatformState ι Guest} {action : Action ι}
    (h : ShowsAs s mmio dma now) (hguard : NoCrossing s action)
    (hstep : step wiring s action = some next) :
    ∃ after, Atomic wiring.alone now (callEvents s action) after ∧
      ∃ mmio' dma', ShowsAs next mmio' dma' after := by
  have hsame : ∀ i, (s.vcpu i).Shows mmio (now.status (.vcpu i)) := h.vcpu
  cases step_effect wiring hstep with
  | vcpuCall i call hphase =>
      obtain ⟨after, hevents, hnext⟩ := showsAs_vcpuCall wiring h call hphase
      exact ⟨after, hevents, mmio, dma, hnext⟩
  | vcpuLock i data request hphase hfree hrequest =>
      have horigin : request.origin = .request .qemu s.log.acquired.length := by rw [hrequest]
      have hwants := hsame i
      rw [hphase] at hwants
      refine ⟨now, .refl now, mmio, dma,
        h.silent (coherent_vcpuLock h.coherent hfree horigin) rfl rfl ?_ rfl⟩
      refine shows_update ?_ fun j _ => hsame j
      rw [hrequest]
      exact hwants
  | vcpuSend i request hphase =>
      obtain ⟨rfl, hnext⟩ := coherent_vcpuSend h.coherent hphase hguard
      have hsending := hsame i
      rw [hphase] at hsending
      refine ⟨now, .refl now, .requested request, dma, h.silent hnext rfl rfl ?_ rfl⟩
      exact shows_update hsending fun j _ => (hsame j).of_same fun _ => rfl
  | vcpuRecv i request packet rest hphase hchannel =>
      obtain ⟨after, hevents, hnext⟩ := showsAs_vcpuRecv wiring h hphase hchannel
      refine ⟨after, ?_, .idle, dma, hnext⟩
      simp only [callEvents, hphase, hchannel]
      exact hevents
  | vcpuUnlock i hphase =>
      have hnext := coherent_vcpuUnlock h.coherent hphase
      have hunlocking := hsame i
      rw [hphase] at hunlocking
      refine ⟨now, .refl now, mmio, dma, h.silent hnext rfl rfl ?_ rfl⟩
      exact shows_update hunlocking fun j _ => hsame j
  | tcpLock hphase hfree =>
      exact ⟨now, .refl now, mmio, dma,
        h.silent (coherent_tcpLock h.coherent hphase hfree) rfl rfl hsame rfl⟩
  | tcpIdle hphase =>
      exact ⟨now, .refl now, mmio, dma,
        h.silent (coherent_tcpIdle h.coherent hphase) rfl rfl hsame rfl⟩
  | tcpTake packet rest hphase hchannel =>
      obtain ⟨rfl, hnext⟩ := coherent_tcpTake h.coherent hphase hchannel
      exact ⟨now, .refl now, mmio, .taken packet, h.silent hnext rfl rfl hsame rfl⟩
  | tcpServe packet thread hphase hserve =>
      obtain ⟨after, hevents, hnext⟩ := showsAs_tcpServe wiring h hphase hserve
      exact ⟨after, hevents, mmio, _, hnext⟩
  | scIdle hfree hphase => exact ⟨now, .refl now, mmio, dma, h⟩
  | scTake packet rest hfree hphase hchannel =>
      obtain ⟨rfl, hnext⟩ := coherent_scTake h.coherent hfree hchannel
      refine ⟨now, .refl now, .taken packet, dma, h.silent hnext rfl rfl ?_ rfl⟩
      exact fun i => (hsame i).of_same fun _ => rfl
  | scServe packet cpu resp hfree hphase hserve =>
      obtain ⟨after, hevents, hnext⟩ := showsAs_scServe wiring h hfree hphase hserve
      exact ⟨after, hevents, _, dma, hnext⟩
  | dmaCall stack transaction data request hfree hsend hrequest =>
      have horigin : request.origin = .request .systemC s.log.sentBySystemC.length := by
        rw [hrequest]
      obtain ⟨after, hevents, hnext⟩ := showsAs_dmaCall wiring h hfree hguard horigin
      refine ⟨after, ?_, mmio, .requested request, hnext⟩
      rw [hrequest] at hevents
      simp only [callEvents, hsend]
      exact hevents
  | dmaRecv request packet rest hphase hchannel =>
      obtain ⟨after, hevents, hnext⟩ := showsAs_dmaRecv wiring h hphase hchannel
      refine ⟨after, ?_, mmio, .idle, hnext⟩
      simp only [callEvents, hchannel]
      exact hevents

/-! ## Runs without crossings -/

omit [DecidableEq ι] in
theorem showsAs_initial (thread : TcpThread Guest) (cpu : QemuCpu) :
    ShowsAs (PlatformState.initial thread cpu : PlatformState ι Guest) .idle .idle
      (AtomicState.quiet (cpu, thread)) where
  coherent := coherent_initial thread cpu
  object := rfl
  vcpu := fun _ => rfl
  initiator := rfl

/-- A run shows the calls and returns of the two objects. -/
theorem showsAs_of_noCrossing {thread : TcpThread Guest} {cpu : QemuCpu}
    {actions : List (Action ι)} {final : PlatformState ι Guest}
    (hguard : GuardedRun (step wiring) NoCrossing (PlatformState.initial thread cpu) actions)
    (hrun : runFrom (step wiring) (PlatformState.initial thread cpu) actions = some final) :
    ∃ after,
      Atomic wiring.alone (AtomicState.quiet (cpu, thread))
        (callHistory wiring (PlatformState.initial thread cpu) actions) after ∧
      ∃ mmio dma, ShowsAs final mmio dma after := by
  have hsimulates : ∀ (state : PlatformState ι Guest) action next now,
      (∃ mmio dma, ShowsAs state mmio dma now) → NoCrossing state action →
        step wiring state action = some next →
          ∃ after, Atomic wiring.alone now (callEvents state action) after ∧
            ∃ mmio dma, ShowsAs next mmio dma after := by
    rintro state action next now ⟨mmio, dma, h⟩ hallowed hstep
    exact showsAs_step wiring h hallowed hstep
  exact atomic_of_simulation hsimulates ⟨.idle, .idle, showsAs_initial thread cpu⟩ hguard hrun

/-- Without crossings the platform is linearizable in both directions: the calls and returns of
a run are those of the two objects, which end in the states of the two sides. -/
theorem linearizable_of_noCrossing (thread : TcpThread Guest) (cpu : QemuCpu)
    (actions : List (Action ι)) (final : PlatformState ι Guest)
    (hguard : GuardedRun (step wiring) NoCrossing (PlatformState.initial thread cpu) actions)
    (hrun : runFrom (step wiring) (PlatformState.initial thread cpu) actions = some final) :
    Linearizable wiring.alone (cpu, thread)
      (callHistory wiring (PlatformState.initial thread cpu) actions)
      (final.cpu, final.thread) := by
  obtain ⟨after, hhistory, mmio, dma, h⟩ := showsAs_of_noCrossing wiring hguard hrun
  rw [← h.object]
  exact hhistory.linearizable

end Simulation

/-! ## The window as bytes -/

/-- One access of an array of bytes. -/
def windowCall (flat : ByteStore) : MmioCall → Option (ByteStore × Option (BitVec 64))
  | .read offset size =>
      some (flat, some (BitVec.ofNat 64 (leValue (readBytes flat offset.toNat size.toNat))))
  | .write offset value size =>
      some (writeBytes flat offset.toNat (leBytes size.toNat value.toNat), none)

/-- An access of QEMU's core at a word offset. -/
def WordCall (call : MmioCall) : Prop :=
  CoreAccess call.shape ∧ call.shape.offset.toNat % 4 = 0

section Window

variable {ι Guest : Type*} (wiring : Wiring Guest)

/-- A callback that runs alone on the target is an access of the window. -/
theorem callAlone_refines_windowCall (cpu : QemuCpu) (flat : ByteStore) (call : MmioCall)
    (next : QemuCpu) (output : Option (BitVec 64))
    (hrelated : window mmioAddr.toNat cpu.memory.mem = flat) (hword : WordCall call)
    (hrun : wiring.callAlone cpu call = some (next, output)) :
    ∃ after, windowCall flat call = some (after, output) ∧
      window mmioAddr.toNat next.memory.mem = after := by
  obtain ⟨hcore, haligned⟩ := hword
  have hoffset : 4 * (call.shape.offset.toNat / 4) = call.shape.offset.toNat :=
    word_offset haligned
  cases call with
  | read offset size =>
      obtain ⟨reached, value, hread, hkeeps, hvalue⟩ :=
        mmioBusRead_core wiring.connected wiring.isClient cpu hcore
      rw [Wiring.callAlone, hread] at hrun
      obtain ⟨rfl, rfl⟩ := Prod.mk.inj (Option.some.inj hrun)
      rw [hrelated, show 4 * (offset.toNat / 4) = offset.toNat from hoffset] at hvalue
      refine ⟨flat, ?_, by rw [hkeeps, hrelated]⟩
      rw [windowCall, ← hvalue, BitVec.ofNat_toNat, BitVec.setWidth_eq]
  | write offset value size =>
      obtain ⟨reached, hwrite, hmem⟩ :=
        mmioBusWrite_core wiring.connected wiring.isClient cpu value hcore
      rw [Wiring.callAlone, hwrite] at hrun
      obtain ⟨rfl, rfl⟩ := Prod.mk.inj (Option.some.inj hrun)
      rw [show 4 * (offset.toNat / 4) = offset.toNat from hoffset] at hmem
      exact ⟨_, rfl, by rw [hmem, window_writeBytes, hrelated]⟩

/-- A call that a step shows is the call of the step, by a vCPU. -/
theorem eq_vcpuCall_of_invoke {s : PlatformState ι Guest} {action : Action ι} {party : Requester ι}
    {call : MmioCall} (hmem : .invoke party (.inl call) ∈ callEvents s action) :
    ∃ i, party = .vcpu i ∧ action = .vcpuCall i call := by
  cases action with
  | vcpuCall i other =>
      cases List.mem_singleton.mp hmem
      exact ⟨i, rfl, rfl⟩
  | vcpuRecv i =>
      rw [callEvents] at hmem
      split at hmem
      · cases List.mem_singleton.mp hmem
      · cases hmem
  | dmaCall stack transaction =>
      rw [callEvents] at hmem
      split at hmem
      · cases List.mem_singleton.mp hmem
      · cases hmem
  | dmaRecv =>
      rw [callEvents] at hmem
      split at hmem
      · cases List.mem_singleton.mp hmem
      · cases hmem
  | vcpuLock | vcpuSend | vcpuUnlock | tcpLock | tcpPoll | tcpServe | scPoll | scServe =>
      cases hmem

variable [DecidableEq ι]

/-- The calls of the history are calls of the run. -/
theorem vcpuCall_of_mem_invocations {start : PlatformState ι Guest} {actions : List (Action ι)}
    {party : Requester ι} {call : MmioCall}
    (hmem : call ∈ invocations party (leftHistory (callHistory wiring start actions))) :
    ∃ i, party = .vcpu i ∧ .vcpuCall i call ∈ actions := by
  obtain ⟨before, action, haction, hevent⟩ :=
    exists_action_of_mem_historyFrom (invoke_mem_leftHistory (mem_invocations.mp hmem))
  obtain ⟨i, hparty, rfl⟩ := eq_vcpuCall_of_invoke hevent
  exact ⟨i, hparty, haction⟩

theorem invokesOnly_of_actions {allowed : MmioCall → Prop} {start : PlatformState ι Guest}
    {actions : List (Action ι)}
    (hallowed : ∀ i call, .vcpuCall i call ∈ actions → allowed call) :
    InvokesOnly allowed (leftHistory (callHistory wiring start actions)) := by
  intro party call hmem
  obtain ⟨i, -, haction⟩ := vcpuCall_of_mem_invocations wiring hmem
  exact hallowed i call haction

/-- Without DMA, the calls of the vCPUs are a history of the array of bytes. -/
theorem atomic_window_of_noDma {thread : TcpThread Guest} {cpu : QemuCpu}
    {actions : List (Action ι)} {final : PlatformState ι Guest}
    (hguard : GuardedRun (step wiring) NoDma (PlatformState.initial thread cpu) actions)
    (hrun : runFrom (step wiring) (PlatformState.initial thread cpu) actions = some final)
    (hword : InvokesOnly WordCall
      (leftHistory (callHistory wiring (PlatformState.initial thread cpu) actions))) :
    ∃ status, Atomic windowCall (AtomicState.quiet (window mmioAddr.toNat cpu.memory.mem))
      (leftHistory (callHistory wiring (PlatformState.initial thread cpu) actions))
      { object := window mmioAddr.toNat final.cpu.memory.mem, status := status } := by
  have hnoCrossing : GuardedRun (step wiring) NoCrossing
      (PlatformState.initial thread cpu : PlatformState ι Guest) actions :=
    GuardedRun.weaken (fun before action next hfree hallowed hstep =>
        initiator_step hfree hallowed hstep)
      (fun before action hfree hallowed => noCrossing_of_noDma hfree hallowed) rfl hguard
  obtain ⟨both, hboth, mmio, dma, h⟩ := showsAs_of_noCrossing wiring hnoCrossing hrun
  obtain ⟨flat, hflat, hhistory⟩ :=
    hboth.left.refine (callAlone_refines_windowCall wiring) rfl hword
  obtain rfl : flat = window mmioAddr.toNat final.cpu.memory.mem := by
    rw [← hflat, AtomicState.left, h.object]
  exact ⟨_, hhistory⟩

/-- In the build without DMA, whatever the schedule and however many vCPUs, the guest sees one
array of bytes behind the window. -/
theorem linearizable_of_noDma (thread : TcpThread Guest) (cpu : QemuCpu)
    (actions : List (Action ι)) (final : PlatformState ι Guest)
    (hguard : GuardedRun (step wiring) NoDma (PlatformState.initial thread cpu) actions)
    (hrun : runFrom (step wiring) (PlatformState.initial thread cpu) actions = some final)
    (hword : ∀ i call, .vcpuCall i call ∈ actions → WordCall call) :
    Linearizable windowCall (window mmioAddr.toNat cpu.memory.mem)
      (leftHistory (callHistory wiring (PlatformState.initial thread cpu) actions))
      (window mmioAddr.toNat final.cpu.memory.mem) := by
  obtain ⟨status, hhistory⟩ :=
    atomic_window_of_noDma wiring hguard hrun (invokesOnly_of_actions wiring hword)
  exact hhistory.linearizable

end Window

/-! ## Two runs -/

/-- One vCPU writes a word and another one, which calls before it, reads it. -/
def writeThenRead : List (Action Bool) :=
  [ .vcpuCall true (.read 4 4), .vcpuCall false (.write 4 7 4), .vcpuLock false,
    .vcpuSend false, .scPoll true, .scServe, .vcpuRecv false, .vcpuUnlock false, .tcpLock,
    .tcpPoll false, .vcpuLock true, .vcpuSend true, .scPoll true, .scServe, .vcpuRecv true ]

theorem wordCall_of_writeThenRead (i : Bool) (call : MmioCall)
    (hmem : .vcpuCall i call ∈ writeThenRead) : WordCall call := by
  simp only [writeThenRead, List.mem_cons, Action.vcpuCall.injEq, reduceCtorEq, List.not_mem_nil,
    or_false] at hmem
  rcases hmem with ⟨-, rfl⟩ | ⟨-, rfl⟩
  · exact ⟨⟨by decide, by decide, by decide⟩, by decide⟩
  · exact ⟨⟨by decide, by decide, by decide⟩, by decide⟩

theorem linearizable_writeThenRead :
    ∃ s, runFrom (step demoWiring) (PlatformState.initial idleThread zeroCpu) writeThenRead =
        some s ∧
      leftHistory (callHistory demoWiring (PlatformState.initial idleThread zeroCpu)
          writeThenRead) =
        [.invoke (.vcpu true) (.read 4 4), .invoke (.vcpu false) (.write 4 7 4),
          .respond (.vcpu false) none, .respond (.vcpu true) (some 7)] ∧
      Linearizable windowCall (window mmioAddr.toNat zeroCpu.memory.mem)
        (leftHistory (callHistory demoWiring (PlatformState.initial idleThread zeroCpu)
          writeThenRead))
        (window mmioAddr.toNat s.cpu.memory.mem) := by
  have hguard : GuardedRun (step demoWiring) NoDma
      (PlatformState.initial idleThread zeroCpu) writeThenRead := by
    apply guardedRun_of_forall_mem
    simp [writeThenRead, NoDma]
  exact ⟨_, rfl, rfl, linearizable_of_noDma demoWiring idleThread zeroCpu writeThenRead _ hguard
    rfl wordCall_of_writeThenRead⟩

/-- A vCPU's read and a transfer of an initiator side by side. -/
theorem linearizable_orderlyRun :
    ∃ s, runFrom (step demoWiring) (PlatformState.initial idleThread zeroCpu) orderlyRun =
        some s ∧
      (callHistory demoWiring (PlatformState.initial idleThread zeroCpu) orderlyRun).length = 3 ∧
      Linearizable demoWiring.alone (zeroCpu, idleThread)
        (callHistory demoWiring (PlatformState.initial idleThread zeroCpu) orderlyRun)
        (s.cpu, s.thread) :=
  ⟨_, rfl, rfl, linearizable_of_noCrossing demoWiring idleThread zeroCpu orderlyRun _
    orderlyRun_noCrossing rfl⟩

end Platform
end AislabVP
