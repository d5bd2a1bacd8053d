import AislabVP.Platform.CallSteps
import AislabVP.Qemu.Service

/-!
# MMIO without DMA

In the normal build no initiator calls `b_transport`.  Then nothing but the vCPU
that holds `dev->mutex` has business on the socket: there is at most one message on
its way or in the dispatcher's hands, the poll of `tcp_thread_func` finds nothing, every
call returns the response that `thread_process` made for its own request, and the
target sees the requests once each, in the order in which the callers got the
mutex.

Two kinds of threads read the same descriptor.  What keeps them apart is that the
poll runs with the mutex held, and a vCPU holds it from before its request is sent
until after its answer is received.
-/

namespace AislabVP
namespace Platform

open Foundation Vpipc Qemu SystemC

/-- A step of the build without `-DDMA`. -/
def NoDma {ι Guest : Type*} (_ : PlatformState ι Guest) : Action ι → Prop
  | .dmaCall _ _ => False
  | _ => True

/-- The message of an access as QEMU's core makes it. -/
def CoreRequest (data : VpTransferData) : Prop :=
  ∃ call : MmioCall, CoreAccess call.shape ∧ data = call.request

section Exclusive

variable {ι Guest : Type*}

/-- The messages on the socket and in the hands of `thread_process`. -/
def PlatformState.outstanding (s : PlatformState ι Guest) : List Packet :=
  s.toSystemC ++ (s.dispatcher.toList ++ s.toQemu)

/-- `thread_process` and the vCPU alone bring the waiting call to its end, with the
response to its request. -/
def Completes [DecidableEq ι] (wiring : Wiring Guest) (s : PlatformState ι Guest) (i : ι)
    (request : Packet) : Prop :=
  ∃ actions final served,
    (∀ action ∈ actions, action = .scPoll true ∨ action = .scServe ∨ action = .vcpuRecv i) ∧
      runFrom (step wiring) s actions = some final ∧
      served ∈ final.log.executed ∧ served.packet = request ∧
      (request, request.answerWith served.response) ∈ final.log.returnedToQemu

/-- MMIO is exclusive and linear. -/
structure ExclusiveMmio [DecidableEq ι] (wiring : Wiring Guest) (s : PlatformState ι Guest) :
    Prop where
  one_outstanding : s.outstanding.length ≤ 1
  one_caller : ∀ i j request other, s.vcpu i = .receiving request →
    s.vcpu j = .receiving other → i = j ∧ request = other
  poll_finds_nothing : s.tcp = .polling → s.toQemu = []
  poll_takes_nothing : ∀ packet, s.tcp ≠ .serving packet
  own_response : ∀ call ∈ s.log.returnedToQemu, AnsweredIn s.log.executed call
  in_order : ∃ pending, s.log.acquired = s.log.executed.map Served.packet ++ pending ∧
    pending.length ≤ 1
  once : (s.log.acquired.map Packet.origin).Nodup
  completes : ∀ i request, s.vcpu i = .receiving request → CoreRequest request.data →
    Completes wiring s i request

/-! ## The invariant -/

variable {wiring : Wiring Guest} {s : PlatformState ι Guest}

/-- Without DMA nothing crosses. -/
theorem noCrossing_of_noDma {action : Action ι} (hfree : s.initiator = none)
    (hguard : NoDma s action) : NoCrossing s action := by
  cases action with
  | dmaCall => exact absurd hguard id
  | vcpuSend i =>
      rintro ⟨request, hwaiting, -⟩
      rw [PlatformState.Waiting, hfree] at hwaiting
      cases hwaiting
  | vcpuCall | vcpuLock | vcpuRecv | vcpuUnlock | tcpLock | tcpPoll | tcpServe | scPoll
  | scServe | dmaRecv => trivial

variable [DecidableEq ι]

theorem initiator_step {next : PlatformState ι Guest} {action : Action ι}
    (hfree : s.initiator = none) (hguard : NoDma s action)
    (hstep : step wiring s action = some next) : next.initiator = none := by
  cases step_effect wiring hstep with
  | dmaCall => exact absurd hguard id
  | dmaRecv => rfl
  | vcpuCall | vcpuLock | vcpuSend | vcpuRecv | vcpuUnlock | tcpLock | tcpIdle | tcpTake
  | tcpServe | scIdle | scTake | scServe => exact hfree

theorem coherent_of_noDma {thread : TcpThread Guest} {cpu : QemuCpu}
    (hreach : ReachableUnder (step wiring) NoDma (PlatformState.initial thread cpu) s) :
    s.initiator = none ∧ ∃ mmio, Coherent s mmio .idle := by
  have hkeep : ∀ (before : PlatformState ι Guest) action next,
      (before.initiator = none ∧ ∃ mmio, Coherent before mmio .idle) →
        NoDma before action → step wiring before action = some next →
          next.initiator = none ∧ ∃ mmio, Coherent next mmio .idle := by
    rintro before action next ⟨hfree, mmio, h⟩ hguard hstep
    have hfreeNext := initiator_step hfree hguard hstep
    obtain ⟨mmio', dma', hnext⟩ := coherent_step h (noCrossing_of_noDma hfree hguard) hstep
    obtain rfl := dma_idle hnext.linked hfreeNext
    exact ⟨hfreeNext, mmio', hnext⟩
  exact invariant_reachableUnder hkeep ⟨rfl, .idle, coherent_initial thread cpu⟩ hreach

/-! ## Completion -/

/-- The dispatcher answers the requests of QEMU's core. -/
theorem dispatch_coreRequest (cpu : QemuCpu) {data : VpTransferData}
    (hcore : CoreRequest data) :
    ∃ next resp, cpu.dispatch (wiring.systemCVpt data) = (next, .ok resp) := by
  rcases hcore with ⟨call, haccess, rfl⟩
  cases call with
  | read offset size =>
      obtain ⟨-, hlength, hadr, hsmall⟩ := position_of_core haccess
      have haccepts : Accepts (readTransaction (readRequest offset size)) :=
        (accepts_setupTransaction_iff _ _ _).mpr ⟨hadr, hlength.trans_le hsmall⟩
      exact ⟨_, _, dispatch_read cpu (wiring.systemCVpt (readRequest offset size)) rfl haccepts⟩
  | write offset value size =>
      obtain ⟨-, hlength, hadr, hsmall⟩ := position_of_core haccess
      have haccepts : Accepts (writeTransaction (writeRequest offset value size)) :=
        (accepts_setupTransaction_iff _ _ _).mpr ⟨hadr, hlength.trans_le hsmall⟩
      exact ⟨_, _,
        dispatch_write cpu (wiring.systemCVpt (writeRequest offset value size)) rfl haccepts⟩

/-- The answer is in the channel: the caller receives it. -/
theorem completes_of_answered {i : ι} {request : Packet} (response : VpTransferData)
    (hphase : s.vcpu i = .receiving request)
    (hchannel : s.toQemu = [request.answerWith response])
    (hexecuted : { packet := request, response := response } ∈ s.log.executed) :
    Completes wiring s i request := by
  have hstep : step wiring s (.vcpuRecv i) = some
      { s with
        vcpu := Function.update s.vcpu i .unlocking
        toQemu := []
        log := { s.log with
          returnedToQemu := s.log.returnedToQemu ++
            [(request, request.answerWith response)] } } := by
    simp only [step, hphase, hchannel]
  refine ⟨[.vcpuRecv i], _, { packet := request, response := response }, ?_,
    runFrom_cons_eq_some.mpr ⟨_, hstep, rfl⟩, hexecuted, rfl, ?_⟩
  · rw [List.forall_mem_singleton]
    exact Or.inr (Or.inr rfl)
  · exact List.mem_append_right _ (List.mem_singleton_self _)

/-- One more step in front. -/
theorem completes_of_step {next : PlatformState ι Guest} {action : Action ι} {i : ι}
    {request : Packet} (haction : action = .scPoll true ∨ action = .scServe)
    (hstep : step wiring s action = some next) (hnext : Completes wiring next i request) :
    Completes wiring s i request := by
  rcases hnext with ⟨actions, final, served, hactions, hrun, hserved⟩
  refine ⟨action :: actions, final, served, ?_, ?_, hserved⟩
  · rw [List.forall_mem_cons]
    refine ⟨?_, hactions⟩
    rcases haction with hpoll | hserve
    · exact Or.inl hpoll
    · exact Or.inr (Or.inl hserve)
  · exact runFrom_cons_eq_some.mpr ⟨next, hstep, hrun⟩

/-- From the dispatcher's hands to the caller. -/
theorem completes_of_taken {i : ι} {request : Packet} (hfree : s.initiator = none)
    (hphase : s.vcpu i = .receiving request) (hdispatcher : s.dispatcher = some request)
    (hchannel : s.toQemu = []) (hcore : CoreRequest request.data) :
    Completes wiring s i request := by
  obtain ⟨cpu, resp, hserve⟩ := @dispatch_coreRequest _ wiring s.cpu _ hcore
  have hstep : step wiring s .scServe = some
      { s with
        dispatcher := none
        cpu := cpu
        toQemu := s.toQemu ++ [request.answerWith resp.data]
        log := { s.log with
          executed := s.log.executed ++ [{ packet := request, response := resp.data }] } } := by
    simp only [step, hfree, hdispatcher, hserve]
  refine completes_of_step (Or.inr rfl) hstep (completes_of_answered resp.data hphase ?_ ?_)
  · exact congrArg (· ++ [request.answerWith resp.data]) hchannel
  · exact List.mem_append_right _ (List.mem_singleton_self _)

/-- Wherever the request of a waiting call is, it gets its answer. -/
theorem completes_of_coherent {mmio : Call} (h : Coherent s mmio .idle)
    (hfree : s.initiator = none) {i : ι} {request : Packet}
    (hphase : s.vcpu i = .receiving request) (hcore : CoreRequest request.data) :
    Completes wiring s i request := by
  have hcaller : mmio.caller = some request := by
    rw [← h.linked.vcpu, PlatformState.current, (current_of_holdsLock h.lock hphase rfl).2]
    rfl
  cases mmio with
  | idle => cases hcaller
  | requested other =>
      obtain rfl := Option.some.inj hcaller
      have hdispatcher : s.dispatcher = none := h.linked.dispatcher
      have hchannel : s.toSystemC = [other] := h.linked.toSystemC
      have hstep : step wiring s (.scPoll true) = some
          { s with dispatcher := some other, toSystemC := [] } := by
        simp only [step, hfree, hdispatcher, hchannel]
      exact completes_of_step (Or.inl rfl) hstep
        (completes_of_taken hfree hphase rfl h.linked.toQemu hcore)
  | taken other =>
      obtain rfl := Option.some.inj hcaller
      exact completes_of_taken hfree hphase h.linked.dispatcher h.linked.toQemu hcore
  | answered other response =>
      obtain rfl := Option.some.inj hcaller
      exact completes_of_answered response hphase h.linked.toQemu
        (h.recorded.executed other response rfl)

/-! ## The result -/

/-- In the build without DMA every reachable state is exclusive and linear. -/
theorem exclusiveMmio_of_reachable (wiring : Wiring Guest) (thread : TcpThread Guest)
    (cpu : QemuCpu) (s : PlatformState ι Guest)
    (hreach : ReachableUnder (step wiring) NoDma (PlatformState.initial thread cpu) s) :
    ExclusiveMmio wiring s := by
  obtain ⟨hfree, mmio, h⟩ := coherent_of_noDma hreach
  have htoQemu : s.toQemu = mmio.replies ++ [] := h.linked.toQemu
  constructor
  case one_outstanding =>
    show (s.toSystemC ++ (s.dispatcher.toList ++ s.toQemu)).length ≤ 1
    rw [h.linked.toSystemC, h.linked.dispatcher, htoQemu]
    cases mmio <;> exact Nat.le_of_ble_eq_true rfl
  case one_caller =>
    intro i j request other hi hj
    -- Both hold the mutex.
    obtain ⟨hownerI, hcurrentI⟩ := current_of_holdsLock h.lock hi rfl
    obtain ⟨hownerJ, hcurrentJ⟩ := current_of_holdsLock h.lock hj rfl
    have howner := hownerI.symm.trans hownerJ
    have hcurrent := hcurrentI.symm.trans hcurrentJ
    cases howner
    cases hcurrent
    exact ⟨rfl, rfl⟩
  case poll_finds_nothing =>
    intro hpolling
    have hcurrent : s.current = .idle :=
      current_of_tcp_holdsLock h.lock (by rw [hpolling]; rfl)
    obtain rfl := mmio_idle h.linked (by rw [hcurrent]; rfl)
    exact htoQemu
  case poll_takes_nothing =>
    intro packet hserving
    -- The thread only ever serves the initiators, and there are none.
    have htcp := h.linked.tcp
    rw [hserving] at htcp
    cases htcp
  case own_response => exact h.recorded.returnedToQemu
  case in_order =>
    have hacquired := h.recorded.acquired
    rw [h.recorded.sentByQemu, List.append_assoc] at hacquired
    refine ⟨_, hacquired, ?_⟩
    -- A vCPU that is about to send does not wait, so there is one pending call at most.
    have hvcpu := h.linked.vcpu
    cases hcurrent : s.current with
    | sending request =>
        rw [hcurrent] at hvcpu
        obtain rfl := Call.eq_idle_of_caller hvcpu.symm
        exact Nat.le_of_ble_eq_true rfl
    | idle | wantsLock | receiving | unlocking =>
        cases mmio <;> exact Nat.le_of_ble_eq_true rfl
  case once => exact nodup_origin_of_numbered h.recorded.numbered
  case completes =>
    intro i request hphase hcore
    exact completes_of_coherent h hfree hphase hcore

end Exclusive

/-! ## Two vCPUs -/

/-- The platform of the demo: plain guest RAM, a server with its client on descriptor
5, and the client's record. -/
def demoWiring : Wiring ByteStore where
  mem := plainMemory
  server := connectedServer
  client := connectedClient
  isServer := rfl
  connected := rfl
  accepted := by decide
  isClient := rfl

/-- Two vCPUs want the mutex; the second one to call gets it first, and the
polling thread comes in between. -/
def twoCalls : List (Action Bool) :=
  [ .vcpuCall false (.write 0 7 4), .vcpuCall true (.read 4 4), .vcpuLock true,
    .vcpuSend true, .scPoll false, .scPoll true, .scServe, .vcpuRecv true,
    .vcpuUnlock true, .tcpLock, .tcpPoll false, .vcpuLock false, .vcpuSend false,
    .scPoll true ]

/-- The state after the two calls: the second request is in the dispatcher's hands. -/
theorem exclusiveMmio_twoCalls :
    ∃ s, runFrom (step demoWiring) (PlatformState.initial idleThread zeroCpu) twoCalls =
        some s ∧ s.log.returnedToQemu.length = 1 ∧ ExclusiveMmio demoWiring s := by
  have hguard : GuardedRun (step demoWiring) NoDma
      (PlatformState.initial idleThread zeroCpu) twoCalls := by
    apply guardedRun_of_forall_mem
    simp [twoCalls, NoDma]
  exact ⟨_, rfl, rfl, exclusiveMmio_of_reachable demoWiring idleThread zeroCpu _
    ⟨twoCalls, hguard, rfl⟩⟩

end Platform
end AislabVP
