import AislabVP.Platform.Exclusive

/-!
# Both sides as initiators

With `-DDMA` requests travel in both directions on the one connection, nothing in a
message tells a request from a response, and `vp_b_transfer` takes whatever comes
next.  What is wanted of every interleaving is that each call returns the response
that the peer's dispatcher gave to its own request (`Matched`).

That holds as long as no request is sent while the peer waits for an answer that is
still to come, and it fails one `recv` after the first such crossing: the vCPU finds
the request of the initiator where its answer should be
(`matched_without_crossings`).
-/

namespace AislabVP
namespace Platform

open Foundation Vpipc Qemu SystemC

section Matching

variable {ι Guest : Type*}

/-- Every call that has returned returned the response of the peer's dispatcher to
its request. -/
structure Matched (s : PlatformState ι Guest) : Prop where
  toQemu : ∀ call ∈ s.log.returnedToQemu, AnsweredIn s.log.executed call
  toSystemC : ∀ call ∈ s.log.returnedToSystemC, AnsweredIn s.log.servedByTcp call

variable {s : PlatformState ι Guest} {mmio dma : Call}

/-! ## Requests and answers -/

theorem origin_of_numbered {side : Side} {log : List Packet} {packet : Packet}
    (hnumbered : log.map Packet.origin = (List.range log.length).map (Origin.request side))
    (hmem : packet ∈ log) : ∃ id, packet.origin = .request side id := by
  have horigin : packet.origin ∈ log.map Packet.origin := List.mem_map_of_mem hmem
  rw [hnumbered] at horigin
  rcases List.mem_map.mp horigin with ⟨id, -, hid⟩
  exact ⟨id, hid.symm⟩

/-- The requests that a vCPU call can be about have been sent by QEMU. -/
theorem mem_sentByQemu (h : Recorded s mmio dma) {request : Packet}
    (hmem : request ∈ mmio.served.toList ++ mmio.inFlight) :
    request ∈ s.log.sentByQemu := by
  rw [h.sentByQemu]
  exact List.mem_append_right _ hmem

theorem mem_sentBySystemC (h : Recorded s mmio dma) {request : Packet}
    (hmem : request ∈ dma.served.toList ++ dma.inFlight) :
    request ∈ s.log.sentBySystemC := by
  rw [h.sentBySystemC]
  exact List.mem_append_right _ hmem

theorem origin_sentByQemu (h : Recorded s mmio dma) {request : Packet}
    (hmem : request ∈ s.log.sentByQemu) : ∃ id, request.origin = .request .qemu id := by
  apply origin_of_numbered h.numbered
  rw [h.acquired]
  exact List.mem_append_left _ hmem

theorem origin_sentBySystemC (h : Recorded s mmio dma) {request : Packet}
    (hmem : request ∈ s.log.sentBySystemC) : ∃ id, request.origin = .request .systemC id :=
  origin_of_numbered h.numberedDma hmem

/-- A request is no answer. -/
theorem origin_ne_answer {packet : Packet} {side : Side} {id : Nat}
    (horigin : packet.origin = .request side id) (other : Origin) :
    packet.origin ≠ .answer other := by
  rw [horigin]
  intro heq
  cases heq

theorem matched_of_coherent (h : Coherent s mmio dma) : Matched s :=
  ⟨h.recorded.returnedToQemu, h.recorded.returnedToSystemC⟩

/-! ## What a crossing does -/

/-- The state after a crossing: a vCPU waits, the only thing for it to receive is the
request of an initiator, and that request is nowhere else. -/
structure Crossed (s : PlatformState ι Guest) (i : ι) (own other : Packet) (id : Nat) :
    Prop where
  vcpu : s.vcpu i = .receiving own
  toQemu : s.toQemu = [other]
  origin : other.origin = .request .systemC id
  initiator : s.initiator = some other
  tcp : s.tcp.served = none
  toSystemC : ∀ packet ∈ s.toSystemC, packet.origin ≠ .answer other.origin

/-- An initiator sends while a vCPU waits for an answer that is still to come. -/
theorem crossed_of_dmaCall (h : Coherent s mmio dma) {request : Packet}
    (hfree : s.initiator = none)
    (hrequest : request.origin = .request .systemC s.log.sentBySystemC.length)
    (hcross : s.Unanswered .qemu) :
    ∃ i own, Crossed
      { s with
        initiator := some request
        toQemu := s.toQemu ++ [request]
        log := { s.log with sentBySystemC := s.log.sentBySystemC ++ [request] } }
      i own request s.log.sentBySystemC.length := by
  obtain rfl := dma_idle h.linked hfree
  rcases hcross with ⟨own, ⟨i, hphase⟩, hnone⟩
  have hcurrent := (current_of_holdsLock h.lock hphase rfl).2
  have hcaller : mmio.caller = some own := by
    rw [← h.linked.vcpu, PlatformState.current, hcurrent]
    rfl
  have hreplies : s.channel Side.qemu.peer = mmio.replies :=
    h.linked.toQemu.trans (List.append_nil _)
  rw [hreplies] at hnone
  -- The vCPU's answer is still to come, so the initiator's request is alone.
  have hchannel : s.toQemu = [] := hreplies.trans (Call.replies_eq_nil hcaller hnone)
  refine ⟨i, own, hphase, congrArg (· ++ [request]) hchannel, hrequest, rfl, h.linked.tcp, ?_⟩
  intro packet hpacket
  have hsent : packet ∈ mmio.inFlight := by
    have htoSystemC : s.toSystemC = mmio.inFlight := h.linked.toSystemC
    exact htoSystemC ▸ hpacket
  obtain ⟨id, hid⟩ := origin_sentByQemu h.recorded
    (mem_sentByQemu h.recorded (List.mem_append_right _ hsent))
  exact origin_ne_answer hid _

variable [DecidableEq ι]

/-- A vCPU sends while an initiator's request is unanswered: its request is still in the
channel, since the vCPU holds the mutex that its dispatcher needs. -/
theorem crossed_of_vcpuSend (h : Coherent s mmio dma) {i : ι} {request : Packet}
    (hphase : s.vcpu i = .sending request) (hcross : s.Unanswered .systemC) :
    ∃ other id, Crossed
      { s with
        vcpu := Function.update s.vcpu i (.receiving request)
        toSystemC := s.toSystemC ++ [request]
        log := { s.log with sentByQemu := s.log.sentByQemu ++ [request] } }
      i request other id := by
  obtain ⟨howner, hcurrent⟩ := current_of_holdsLock h.lock hphase rfl
  obtain rfl := mmio_idle h.linked (congrArg VcpuPhase.waiting hcurrent)
  have hserved : s.tcp.served = none := by
    cases htcp : s.tcp with
    | serving packet =>
        have hheld := h.lock.tcp.mp (by rw [htcp]; rfl)
        rw [howner] at hheld
        cases hheld
    | condWait | polling => rfl
  rcases hcross with ⟨other, hwaiting, hnone⟩
  have hcaller : dma.caller = some other := h.linked.initiator.symm.trans hwaiting
  have hreplies : s.channel Side.systemC.peer = dma.replies :=
    h.linked.toSystemC.trans (List.append_nil _)
  rw [hreplies] at hnone
  have hacquired : request ∈ s.log.acquired := by
    rw [h.recorded.acquired, PlatformState.current, hcurrent]
    exact List.mem_append_right _ (List.mem_singleton_self _)
  obtain ⟨own, hown⟩ := origin_of_numbered h.recorded.numbered hacquired
  cases dma with
  | idle => cases hcaller
  | requested sent =>
      obtain rfl := Option.some.inj hcaller
      obtain ⟨id, hid⟩ := origin_sentBySystemC h.recorded
        (mem_sentBySystemC h.recorded (List.mem_singleton_self sent))
      refine ⟨sent, id, Function.update_self _ _ _, h.linked.toQemu, hid, hwaiting, hserved, ?_⟩
      -- The only message to SystemC is the vCPU's own request.
      intro packet hpacket
      have hchannel : s.toSystemC = [] := h.linked.toSystemC
      rw [hchannel] at hpacket
      obtain rfl := List.mem_singleton.mp hpacket
      exact origin_ne_answer hown _
  | taken sent =>
      -- The thread would be in the loop body, with the mutex.
      have htaken := h.linked.tcp
      rw [hserved] at htaken
      cases htaken
  | answered sent response =>
      cases Call.replies_eq_nil hcaller hnone

variable {wiring : Wiring Guest}

/-- A step that is a crossing leads to such a state. -/
theorem crossed_of_crossing (h : Coherent s mmio dma) {action : Action ι}
    {next : PlatformState ι Guest} (hstep : step wiring s action = some next)
    (hcross : ¬NoCrossing s action) : ∃ i own other id, Crossed next i own other id := by
  cases step_effect wiring hstep with
  | vcpuSend i request hphase =>
      obtain ⟨other, id, hcrossed⟩ := crossed_of_vcpuSend h hphase (not_not.mp hcross)
      exact ⟨i, request, other, id, hcrossed⟩
  | dmaCall stack trans data request hfree hsend hrequest =>
      have horigin : request.origin = .request .systemC s.log.sentBySystemC.length := by
        rw [hrequest]
      obtain ⟨i, own, hcrossed⟩ := crossed_of_dmaCall h hfree horigin (not_not.mp hcross)
      exact ⟨i, own, request, _, hcrossed⟩
  | vcpuCall | vcpuLock | vcpuRecv | vcpuUnlock | tcpLock | tcpIdle | tcpTake | tcpServe
  | scIdle | scTake | scServe | dmaRecv => exact absurd trivial hcross

/-- The next `recv` of the vCPU returns the initiator's request. -/
theorem Crossed.recv {i : ι} {own other : Packet} {id : Nat} (h : Crossed s i own other id) :
    step wiring s (.vcpuRecv i) = some
      { s with
        vcpu := Function.update s.vcpu i .unlocking
        toQemu := []
        log := { s.log with returnedToQemu := s.log.returnedToQemu ++ [(own, other)] } } := by
  simp only [step, h.vcpu, h.toQemu]

/-- In every run without crossings every call that returns returns the response to its
own request; and one `recv` after the first crossing a call has returned something
else. -/
theorem matched_without_crossings (wiring : Wiring Guest) (thread : TcpThread Guest)
    (cpu : QemuCpu) :
    (∀ s : PlatformState ι Guest,
      ReachableUnder (step wiring) NoCrossing (PlatformState.initial thread cpu) s →
        Matched s) ∧
      ∀ (s next : PlatformState ι Guest) action,
        ReachableUnder (step wiring) NoCrossing (PlatformState.initial thread cpu) s →
          step wiring s action = some next → ¬NoCrossing s action →
            ∃ i final, step wiring next (.vcpuRecv i) = some final ∧ ¬Matched final := by
  constructor
  · intro s hreach
    obtain ⟨mmio, dma, h⟩ := coherent_of_reachable hreach
    exact matched_of_coherent h
  · intro s next action hreach hstep hcross
    obtain ⟨mmio, dma, h⟩ := coherent_of_reachable hreach
    obtain ⟨i, own, other, id, hcrossed⟩ := crossed_of_crossing h hstep hcross
    refine ⟨i, _, hcrossed.recv, fun hmatched => ?_⟩
    -- The vCPU's call has returned a request, which is no answer.
    obtain ⟨served, -, -, hanswer⟩ := hmatched.toQemu (own, other)
      (List.mem_append_right _ (List.mem_singleton_self _))
    have horigin := hcrossed.origin
    rw [show other = own.answerWith served.response from hanswer] at horigin
    cases horigin

end Matching

/-! ## Two runs -/

/-- A word read through the slave socket. -/
def slaveRead (address : BitVec 64) : TlmPayload :=
  { command := .read, address := address, data := [0, 0, 0, 0], dataLength := 4,
    byteEnable := none, streamingWidth := 4, dmiAllowed := false,
    responseStatus := .incomplete }

/-- The vCPU sends its request when the answer to an initiator is on its way, and
the dispatcher takes it when the initiator has received that. -/
def orderlyRun : List (Action Unit) :=
  [ .vcpuCall () (.read 0 4), .dmaCall 0 (slaveRead 0x30000000), .tcpLock, .tcpPoll true,
    .tcpServe, .vcpuLock (), .vcpuSend (), .dmaRecv, .scPoll true ]

theorem orderlyRun_noCrossing : GuardedRun (step demoWiring) NoCrossing
    (PlatformState.initial idleThread zeroCpu) orderlyRun := by
  refine guardedRun_cons trivial rfl (guardedRun_cons ?_ rfl (guardedRun_cons trivial rfl
    (guardedRun_cons trivial rfl (guardedRun_cons trivial rfl (guardedRun_cons trivial rfl
    (guardedRun_cons ?_ rfl (guardedRun_cons trivial rfl (guardedRun_cons trivial rfl
    trivial))))))))
  · rintro ⟨request, ⟨i, hphase⟩, -⟩
    cases hphase
  · rintro ⟨request, hwaiting, hnone⟩
    cases hwaiting
    exact hnone _ (List.mem_singleton_self _) rfl

theorem matched_orderlyRun :
    ∃ s, runFrom (step demoWiring) (PlatformState.initial idleThread zeroCpu) orderlyRun =
        some s ∧ s.log.returnedToSystemC.length = 1 ∧ Matched s :=
  ⟨_, rfl, rfl, (matched_without_crossings demoWiring idleThread zeroCpu).1 _
    ⟨orderlyRun, orderlyRun_noCrossing, rfl⟩⟩

/-- While the target serves a vCPU's read, an initiator calls `b_transport`. -/
def nestedRun : List (Action Unit) :=
  [ .vcpuCall () (.read 0 4), .vcpuLock (), .vcpuSend (), .scPoll true,
    .dmaCall 0 (slaveRead 0x18000000), .vcpuRecv () ]

/-- The vCPU's `vp_b_transfer` returns the request of the initiator. -/
theorem vcpu_receives_nested_request :
    ∃ s own other, runFrom (step demoWiring) (PlatformState.initial idleThread zeroCpu)
        nestedRun = some s ∧
      s.log.returnedToQemu = [(own, other)] ∧ own.origin = .request .qemu 0 ∧
      other.origin = .request .systemC 0 ∧ ¬Matched s := by
  refine ⟨_, _, _, rfl, rfl, rfl, rfl, fun hmatched => ?_⟩
  obtain ⟨served, hserved, -⟩ := hmatched.toQemu _ (List.mem_singleton_self _)
  cases hserved

end Platform
end AislabVP
