import AislabVP.Platform.Calls
import Mathlib.Data.List.Nodup

/-!
# The calls under each step

One lemma for each step of a party: from a coherent state it leads to a coherent
state, and it says what becomes of the two calls.  `coherent_step` collects them, and
`coherent_of_reachable` carries them over whole runs without crossings.
-/

namespace AislabVP
namespace Platform

open Foundation Vpipc Qemu SystemC

section Steps

variable {ι Guest : Type*} {s : PlatformState ι Guest} {mmio dma : Call}

/-! ## Facts about one state -/

theorem numbered_append {side : Side} {log : List Packet} {request : Packet}
    (hnumbered : log.map Packet.origin = (List.range log.length).map (Origin.request side))
    (hrequest : request.origin = .request side log.length) :
    (log ++ [request]).map Packet.origin =
      (List.range (log ++ [request]).length).map (Origin.request side) := by
  rw [List.map_append, List.length_append, List.length_singleton, List.range_succ,
    List.map_append, hnumbered]
  simp [hrequest]

/-- Numbered requests have different origins. -/
theorem nodup_origin_of_numbered {side : Side} {log : List Packet}
    (hnumbered : log.map Packet.origin = (List.range log.length).map (Origin.request side)) :
    (log.map Packet.origin).Nodup := by
  have hinjective : Function.Injective (Origin.request side) := by
    intro left right hsame
    cases hsame
    rfl
  rw [hnumbered]
  exact List.Nodup.map hinjective List.nodup_range

theorem AnsweredIn.append {log : List Served} {call : Packet × Packet}
    (hanswered : AnsweredIn log call) (more : List Served) :
    AnsweredIn (log ++ more) call := by
  rcases hanswered with ⟨served, hmem, hserved⟩
  exact ⟨served, List.mem_append_left more hmem, hserved⟩

theorem forall_answeredIn_append {log : List Served} {calls : List (Packet × Packet)}
    (hcalls : ∀ call ∈ calls, AnsweredIn log call) (more : List Served) :
    ∀ call ∈ calls, AnsweredIn (log ++ more) call :=
  fun call hcall => (hcalls call hcall).append more

/-- The first message that a waiting call finds is its answer: only when its own
request is settled is there anything before the peer's request. -/
theorem answered_of_recv {own other : Call} {request packet : Packet} {rest : List Packet}
    (hcaller : own.caller = some request) (hapart : own.Settled ∨ other.Settled)
    (hchannel : own.replies ++ other.inFlight = packet :: rest) :
    ∃ response, own = .answered request response ∧ packet = request.answerWith response ∧
      rest = other.inFlight := by
  have hsettled : own.Settled := by
    rcases hapart with hown | hother
    · exact hown
    · -- The peer has no request in the channel, so the message is an answer.
      rw [hother.1, List.append_nil] at hchannel
      cases own with
      | answered taken response => exact ⟨rfl, rfl⟩
      | idle | requested | taken => cases hchannel
  obtain ⟨response, rfl⟩ := Call.eq_answered_of_settled hcaller hsettled
  obtain ⟨rfl, rfl⟩ := List.cons.inj hchannel
  exact ⟨response, rfl, rfl, rfl⟩

/-- A call whose answer is in the channel, or no call at all, is settled. -/
theorem settled_of_not_unanswered {own other : Call}
    (hanswer : ∀ request, own.caller = some request →
      ¬∀ packet ∈ own.replies ++ other.inFlight, packet.origin ≠ .answer request.origin)
    (hother : other.inFlight = []) : own.Settled := by
  cases own with
  | idle => exact ⟨rfl, rfl⟩
  | requested request =>
      refine absurd ?_ (hanswer request rfl)
      rw [hother]
      exact nofun
  | taken request =>
      refine absurd ?_ (hanswer request rfl)
      rw [hother]
      exact nofun
  | answered request response => exact ⟨rfl, rfl⟩

/-- No vCPU waits, so the MMIO call is idle. -/
theorem mmio_idle (h : Linked s mmio dma) (hcurrent : s.current.waiting = none) :
    mmio = .idle :=
  Call.eq_idle_of_caller (h.vcpu.symm.trans hcurrent)

theorem dma_idle (h : Linked s mmio dma) (hfree : s.initiator = none) : dma = .idle :=
  Call.eq_idle_of_caller (h.initiator.symm.trans hfree)

/-! ## Steps of `tcp_thread_func` -/

theorem coherent_tcpLock (h : Coherent s mmio dma) (hphase : s.tcp = .condWait)
    (hfree : s.owner = none) :
    Coherent { s with owner := some .tcpThread, tcp := .polling } mmio dma := by
  have hbefore : s.current = .idle := by
    rw [PlatformState.current, hfree]
    rfl
  have hlock := h.lock
  rw [hfree] at hlock
  refine ⟨hlock.tcpAcquire rfl, { h.linked with tcp := ?_, vcpu := ?_ },
    { h.recorded with acquired := ?_ }⟩
  · rw [← h.linked.tcp, hphase]
    rfl
  · rw [← h.linked.vcpu, hbefore]
    rfl
  · rw [h.recorded.acquired, hbefore]
    rfl

theorem coherent_tcpIdle (h : Coherent s mmio dma) (hphase : s.tcp = .polling) :
    Coherent { s with owner := none, tcp := .condWait } mmio dma := by
  have hheld : s.tcp.holdsLock = true := by rw [hphase]; rfl
  have hbefore : s.current = .idle := current_of_tcp_holdsLock h.lock hheld
  refine ⟨h.lock.tcpRelease hheld, { h.linked with tcp := ?_, vcpu := ?_ },
    { h.recorded with acquired := ?_ }⟩
  · rw [← h.linked.tcp, hphase]
    rfl
  · rw [← h.linked.vcpu, hbefore]
    rfl
  · rw [h.recorded.acquired, hbefore]
    rfl

/-- A poll that finds a message finds a request: the mutex keeps every MMIO call
away. -/
theorem coherent_tcpTake (h : Coherent s mmio dma) {packet : Packet} {rest : List Packet}
    (hphase : s.tcp = .polling) (hchannel : s.toQemu = packet :: rest) :
    dma = .requested packet ∧
      Coherent { s with tcp := .serving packet, toQemu := rest } mmio (.taken packet) := by
  have hheld : s.tcp.holdsLock = true := by rw [hphase]; rfl
  have hbefore : s.current = .idle := current_of_tcp_holdsLock h.lock hheld
  obtain rfl := mmio_idle h.linked (by rw [hbefore]; rfl)
  obtain ⟨rfl, rfl⟩ := Call.eq_requested_of_inFlight (h.linked.toQemu.symm.trans hchannel)
  have hlock : LockHeld s.owner s.vcpu (.serving packet) :=
    ⟨h.lock.vcpu, iff_of_true rfl (h.lock.tcp.mp hheld)⟩
  refine ⟨rfl, hlock, ?_, ?_⟩
  · exact { h.linked with toQemu := rfl, tcp := rfl, apart := Or.inl ⟨rfl, rfl⟩ }
  · exact { h.recorded with servedByTcp := nofun }

theorem coherent_tcpServe (h : Coherent s mmio dma) {packet : Packet}
    (hphase : s.tcp = .serving packet) (thread : TcpThread Guest)
    (response : VpTransferData) :
    dma = .taken packet ∧
    Coherent
      { s with
        owner := none
        tcp := .condWait
        thread := thread
        toSystemC := s.toSystemC ++ [packet.answerWith response]
        log := { s.log with
          servedByTcp := s.log.servedByTcp ++
            [{ packet := packet, response := response }] } }
      mmio (.answered packet response) := by
  have hheld : s.tcp.holdsLock = true := by rw [hphase]; rfl
  have hbefore : s.current = .idle := current_of_tcp_holdsLock h.lock hheld
  obtain rfl := mmio_idle h.linked (by rw [hbefore]; rfl)
  obtain rfl := Call.eq_taken_of_served (by rw [← h.linked.tcp, hphase]; rfl)
  refine ⟨rfl, h.lock.tcpRelease hheld, ?_, ?_⟩
  · refine { h.linked with toSystemC := ?_, tcp := rfl, vcpu := ?_, apart := Or.inl ⟨rfl, rfl⟩ }
    · show s.toSystemC ++ [_] = _
      rw [h.linked.toSystemC]
      rfl
    · rfl
  · refine { h.recorded with
      acquired := ?_, sentBySystemC := ?_, servedByTcp := ?_, returnedToSystemC := ?_ }
    · rw [h.recorded.acquired, hbefore]
      rfl
    · show s.log.sentBySystemC = (s.log.servedByTcp ++ [_]).map Served.packet ++ _
      rw [h.recorded.sentBySystemC]
      simp [Call.served, Call.inFlight]
    · intro request other hanswered
      cases hanswered
      exact List.mem_append_right _ (List.mem_singleton_self _)
    · exact forall_answeredIn_append h.recorded.returnedToSystemC _

/-! ## Steps of SystemC -/

/-- The dispatcher finds a request: no initiator waits, so no answer is on its
way. -/
theorem coherent_scTake (h : Coherent s mmio dma) {packet : Packet} {rest : List Packet}
    (hfree : s.initiator = none) (hchannel : s.toSystemC = packet :: rest) :
    mmio = .requested packet ∧
      Coherent { s with dispatcher := some packet, toSystemC := rest } (.taken packet) dma := by
  obtain rfl := dma_idle h.linked hfree
  obtain ⟨rfl, rfl⟩ := Call.eq_requested_of_inFlight (h.linked.toSystemC.symm.trans hchannel)
  refine ⟨rfl, h.lock, ?_, ?_⟩
  · exact { h.linked with toSystemC := rfl, dispatcher := rfl, apart := Or.inr ⟨rfl, rfl⟩ }
  · exact { h.recorded with executed := nofun }

theorem coherent_scServe (h : Coherent s mmio dma) {packet : Packet}
    (hfree : s.initiator = none) (hphase : s.dispatcher = some packet) (cpu : QemuCpu)
    (response : VpTransferData) :
    mmio = .taken packet ∧
    Coherent
      { s with
        dispatcher := none
        cpu := cpu
        toQemu := s.toQemu ++ [packet.answerWith response]
        log := { s.log with
          executed := s.log.executed ++ [{ packet := packet, response := response }] } }
      (.answered packet response) dma := by
  obtain rfl := dma_idle h.linked hfree
  obtain rfl := Call.eq_taken_of_served (h.linked.dispatcher.symm.trans hphase)
  refine ⟨rfl, h.lock, ?_, ?_⟩
  · refine { h.linked with toQemu := ?_, dispatcher := rfl, apart := Or.inr ⟨rfl, rfl⟩ }
    show s.toQemu ++ [_] = _
    rw [h.linked.toQemu]
    rfl
  · refine { h.recorded with sentByQemu := ?_, executed := ?_, returnedToQemu := ?_ }
    · show s.log.sentByQemu = (s.log.executed ++ [_]).map Served.packet ++ _
      rw [h.recorded.sentByQemu]
      simp [Call.served, Call.inFlight]
    · intro request other hanswered
      cases hanswered
      exact List.mem_append_right _ (List.mem_singleton_self _)
    · exact forall_answeredIn_append h.recorded.returnedToQemu _

/-- An initiator sends while nothing of QEMU is pending. -/
theorem coherent_dmaCall (h : Coherent s mmio dma) {request : Packet}
    (hfree : s.initiator = none) (hguard : ¬s.Unanswered .qemu)
    (hrequest : request.origin = .request .systemC s.log.sentBySystemC.length) :
    dma = .idle ∧
    Coherent
      { s with
        initiator := some request
        toQemu := s.toQemu ++ [request]
        log := { s.log with sentBySystemC := s.log.sentBySystemC ++ [request] } }
      mmio (.requested request) := by
  obtain rfl := dma_idle h.linked hfree
  -- A vCPU that waits already has its answer in the channel.
  have hsettled : mmio.Settled := by
    refine settled_of_not_unanswered (fun other hcaller hnone => hguard ?_)
      (show Call.idle.inFlight = [] from rfl)
    refine ⟨other, (receiving_iff_current h.lock other).mpr ?_, ?_⟩
    · exact VcpuPhase.eq_receiving_of_waiting (h.linked.vcpu.trans hcaller)
    · show ∀ packet ∈ s.toQemu, _
      rw [h.linked.toQemu]
      exact hnone
  refine ⟨rfl, h.lock, ?_, ?_⟩
  · refine { h.linked with toQemu := ?_, initiator := rfl, apart := Or.inl hsettled }
    show s.toQemu ++ [request] = _
    rw [h.linked.toQemu]
    simp [Call.inFlight]
  · refine { h.recorded with sentBySystemC := ?_, numberedDma := ?_, servedByTcp := nofun }
    · show s.log.sentBySystemC ++ [request] = _
      rw [h.recorded.sentBySystemC]
      simp [Call.served, Call.inFlight]
    · exact numbered_append h.recorded.numberedDma hrequest

/-- What the initiator finds is its answer. -/
theorem coherent_dmaRecv (h : Coherent s mmio dma) {request packet : Packet}
    {rest : List Packet} (hphase : s.initiator = some request)
    (hchannel : s.toSystemC = packet :: rest) :
    Coherent
      { s with
        initiator := none
        toSystemC := rest
        log := { s.log with
          returnedToSystemC := s.log.returnedToSystemC ++ [(request, packet)] } }
      mmio .idle := by
  have hcaller : dma.caller = some request := h.linked.initiator.symm.trans hphase
  obtain ⟨response, rfl, rfl, rfl⟩ :=
    answered_of_recv hcaller h.linked.apart.symm (h.linked.toSystemC.symm.trans hchannel)
  refine ⟨h.lock, ?_, ?_⟩
  · exact { h.linked with toSystemC := rfl, initiator := rfl, apart := Or.inr ⟨rfl, rfl⟩ }
  · refine { h.recorded with servedByTcp := nofun, returnedToSystemC := ?_ }
    show ∀ call ∈ s.log.returnedToSystemC ++ [_], AnsweredIn s.log.servedByTcp call
    rw [List.forall_mem_append, List.forall_mem_singleton]
    exact ⟨h.recorded.returnedToSystemC,
      _, h.recorded.servedByTcp request response rfl, rfl, rfl⟩

/-! ## Steps of a vCPU -/

variable [DecidableEq ι]

theorem coherent_vcpuCall (h : Coherent s mmio dma) {i : ι} (call : MmioCall)
    (hphase : s.vcpu i = .idle) :
    Coherent { s with vcpu := Function.update s.vcpu i (.wantsLock call.request) }
      mmio dma := by
  have hcurrent : currentPhase s.owner
      (Function.update s.vcpu i (.wantsLock call.request)) = s.current :=
    current_update_other (h.lock.ne_owner hphase rfl)
  refine ⟨h.lock.update hphase rfl, { h.linked with vcpu := ?_ },
    { h.recorded with acquired := ?_ }⟩
  · exact (congrArg VcpuPhase.waiting hcurrent).trans h.linked.vcpu
  · rw [PlatformState.current, hcurrent]
    exact h.recorded.acquired

theorem coherent_vcpuLock (h : Coherent s mmio dma) {i : ι} {request : Packet}
    (hfree : s.owner = none)
    (hrequest : request.origin = .request .qemu s.log.acquired.length) :
    Coherent
      { s with
        owner := some (.vcpu i)
        vcpu := Function.update s.vcpu i (.sending request)
        log := { s.log with acquired := s.log.acquired ++ [request] } } mmio dma := by
  have hbefore : s.current = .idle := by
    rw [PlatformState.current, hfree]
    rfl
  have hcurrent : currentPhase (some (.vcpu i))
      (Function.update s.vcpu i (.sending request)) = .sending request :=
    current_update_owner rfl
  have hlock := h.lock
  rw [hfree] at hlock
  refine ⟨hlock.acquire rfl, { h.linked with vcpu := ?_ },
    { h.recorded with acquired := ?_, numbered := ?_ }⟩
  · rw [PlatformState.current, hcurrent, ← h.linked.vcpu, hbefore]
    rfl
  · -- The new request is the one call that has the mutex and has not sent.
    have hacquired := h.recorded.acquired
    rw [hbefore] at hacquired
    show s.log.acquired ++ [request] = s.log.sentByQemu ++ (currentPhase _ _).unsent
    rw [hcurrent, hacquired]
    simp [VcpuPhase.unsent]
  · exact numbered_append h.recorded.numbered hrequest

/-- The request goes out while nothing of the peer is pending. -/
theorem coherent_vcpuSend (h : Coherent s mmio dma) {i : ι} {request : Packet}
    (hphase : s.vcpu i = .sending request) (hguard : ¬s.Unanswered .systemC) :
    mmio = .idle ∧
    Coherent
      { s with
        vcpu := Function.update s.vcpu i (.receiving request)
        toSystemC := s.toSystemC ++ [request]
        log := { s.log with sentByQemu := s.log.sentByQemu ++ [request] } }
      (.requested request) dma := by
  obtain ⟨howner, hbefore⟩ := current_of_holdsLock h.lock hphase rfl
  have hcurrent : currentPhase s.owner (Function.update s.vcpu i (.receiving request)) =
      .receiving request := current_update_owner howner
  obtain rfl := mmio_idle h.linked (congrArg VcpuPhase.waiting hbefore)
  -- An initiator that waits already has its answer in the channel.
  have hsettled : dma.Settled := by
    refine settled_of_not_unanswered (fun other hcaller hnone => hguard ?_)
      (show Call.idle.inFlight = [] from rfl)
    refine ⟨other, h.linked.initiator.trans hcaller, ?_⟩
    show ∀ packet ∈ s.toSystemC, _
    rw [h.linked.toSystemC]
    exact hnone
  refine ⟨rfl, h.lock.update hphase rfl, ?_, ?_⟩
  · refine { h.linked with toSystemC := ?_, vcpu := ?_, apart := Or.inr hsettled }
    · show s.toSystemC ++ [request] = _
      rw [h.linked.toSystemC]
      simp [Call.inFlight]
    · exact congrArg VcpuPhase.waiting hcurrent
  · refine { h.recorded with acquired := ?_, sentByQemu := ?_, executed := nofun }
    · have hacquired := h.recorded.acquired
      rw [PlatformState.current, hbefore] at hacquired
      show s.log.acquired = (s.log.sentByQemu ++ [request]) ++ (currentPhase _ _).unsent
      rw [hcurrent, hacquired]
      simp [VcpuPhase.unsent]
    · show s.log.sentByQemu ++ [request] = _
      rw [h.recorded.sentByQemu]
      simp [Call.served, Call.inFlight]

/-- What the vCPU finds is its answer. -/
theorem coherent_vcpuRecv (h : Coherent s mmio dma) {i : ι} {request packet : Packet}
    {rest : List Packet} (hphase : s.vcpu i = .receiving request)
    (hchannel : s.toQemu = packet :: rest) :
    Coherent
      { s with
        vcpu := Function.update s.vcpu i .unlocking
        toQemu := rest
        log := { s.log with
          returnedToQemu := s.log.returnedToQemu ++ [(request, packet)] } } .idle dma := by
  obtain ⟨howner, hbefore⟩ := current_of_holdsLock h.lock hphase rfl
  have hcurrent : currentPhase s.owner (Function.update s.vcpu i .unlocking) = .unlocking :=
    current_update_owner howner
  have hcaller : mmio.caller = some request := by
    rw [← h.linked.vcpu, PlatformState.current, hbefore]
    rfl
  obtain ⟨response, rfl, rfl, rfl⟩ :=
    answered_of_recv hcaller h.linked.apart (h.linked.toQemu.symm.trans hchannel)
  refine ⟨h.lock.update hphase rfl, ?_, ?_⟩
  · refine { h.linked with toQemu := rfl, vcpu := ?_, apart := Or.inl ⟨rfl, rfl⟩ }
    exact congrArg VcpuPhase.waiting hcurrent
  · refine { h.recorded with acquired := ?_, executed := nofun, returnedToQemu := ?_ }
    · have hacquired := h.recorded.acquired
      rw [PlatformState.current, hbefore] at hacquired
      show s.log.acquired = s.log.sentByQemu ++ (currentPhase _ _).unsent
      rw [hcurrent]
      exact hacquired
    · show ∀ call ∈ s.log.returnedToQemu ++ [_], AnsweredIn s.log.executed call
      rw [List.forall_mem_append, List.forall_mem_singleton]
      exact ⟨h.recorded.returnedToQemu,
        _, h.recorded.executed request response rfl, rfl, rfl⟩

theorem coherent_vcpuUnlock (h : Coherent s mmio dma) {i : ι}
    (hphase : s.vcpu i = .unlocking) :
    Coherent { s with owner := none, vcpu := Function.update s.vcpu i .idle } mmio dma := by
  obtain ⟨howner, hbefore⟩ := current_of_holdsLock h.lock hphase rfl
  refine ⟨h.lock.release howner rfl, { h.linked with vcpu := ?_ },
    { h.recorded with acquired := ?_ }⟩
  · rw [← h.linked.vcpu, PlatformState.current, PlatformState.current, hbefore]
    rfl
  · rw [h.recorded.acquired, PlatformState.current, PlatformState.current, hbefore]
    rfl

/-! ## Runs -/

variable {wiring : Wiring Guest}

/-- Every step without a crossing keeps the state coherent. -/
theorem coherent_step {next : PlatformState ι Guest} {action : Action ι}
    (h : Coherent s mmio dma) (hguard : NoCrossing s action)
    (hstep : step wiring s action = some next) :
    ∃ mmio' dma', Coherent next mmio' dma' := by
  cases step_effect wiring hstep with
  | vcpuCall i call hphase => exact ⟨mmio, dma, coherent_vcpuCall h call hphase⟩
  | vcpuLock i data request hphase hfree hrequest =>
      exact ⟨mmio, dma, coherent_vcpuLock h hfree (by rw [hrequest])⟩
  | vcpuSend i request hphase =>
      exact ⟨.requested request, dma, (coherent_vcpuSend h hphase hguard).2⟩
  | vcpuRecv i request packet rest hphase hchannel =>
      exact ⟨.idle, dma, coherent_vcpuRecv h hphase hchannel⟩
  | vcpuUnlock i hphase => exact ⟨mmio, dma, coherent_vcpuUnlock h hphase⟩
  | tcpLock hphase hfree => exact ⟨mmio, dma, coherent_tcpLock h hphase hfree⟩
  | tcpIdle hphase => exact ⟨mmio, dma, coherent_tcpIdle h hphase⟩
  | tcpTake packet rest hphase hchannel =>
      exact ⟨mmio, .taken packet, (coherent_tcpTake h hphase hchannel).2⟩
  | tcpServe packet thread hphase hserve =>
      exact ⟨mmio, .answered packet _, (coherent_tcpServe h hphase thread _).2⟩
  | scIdle hfree hphase => exact ⟨mmio, dma, h⟩
  | scTake packet rest hfree hphase hchannel =>
      exact ⟨.taken packet, dma, (coherent_scTake h hfree hchannel).2⟩
  | scServe packet cpu resp hfree hphase hserve =>
      exact ⟨.answered packet resp.data, dma, (coherent_scServe h hfree hphase cpu _).2⟩
  | dmaCall stack trans data request hfree hsend hrequest =>
      exact ⟨mmio, .requested request,
        (coherent_dmaCall h hfree hguard (by rw [hrequest])).2⟩
  | dmaRecv request packet rest hphase hchannel =>
      exact ⟨mmio, .idle, coherent_dmaRecv h hphase hchannel⟩

/-- A run without crossings ends in a coherent state. -/
theorem coherent_of_reachable {thread : TcpThread Guest} {cpu : QemuCpu}
    (hreach : ReachableUnder (step wiring) NoCrossing
      (PlatformState.initial thread cpu) s) : ∃ mmio dma, Coherent s mmio dma := by
  have hkeep : ∀ (before : PlatformState ι Guest) action next,
      (∃ mmio dma, Coherent before mmio dma) → NoCrossing before action →
        step wiring before action = some next → ∃ mmio dma, Coherent next mmio dma := by
    rintro before action next ⟨mmio, dma, h⟩ hguard hstep
    exact coherent_step h hguard hstep
  exact invariant_reachableUnder hkeep ⟨.idle, .idle, coherent_initial thread cpu⟩ hreach

end Steps

end Platform
end AislabVP
