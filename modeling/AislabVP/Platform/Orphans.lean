import AislabVP.Platform.Interleaving

/-!
# No orphaned caller

A caller of `vp_b_transfer` is blocked in `recv` until a message comes.  It is not
forgotten as long as its request is on its way, or with the peer's dispatcher, or its
answer is on its way (`NoOrphans`).

The state that must not be reached is the one after a crossing: the vCPU has
received the initiator's request, and the initiator waits for an answer that nobody
will give.  In orderly runs there is none (`noOrphans_in_orderly_runs`).  Orderly means
without crossings, and with requests that the dispatchers can answer: QEMU's core only
makes accesses that the target accepts, and a DMA request may not name the device's own
window, where `tcp_thread_func` would wait for the mutex it holds.
-/

namespace AislabVP
namespace Platform

open Foundation Vpipc Qemu SystemC

section Orphans

variable {ι Guest : Type*}

/-- The requests that a side has sent. -/
def PlatformState.sent (s : PlatformState ι Guest) : Side → List Packet
  | .qemu => s.log.sentByQemu
  | .systemC => s.log.sentBySystemC

/-- The messages that the dispatcher of a side has taken. -/
def PlatformState.takenBy (s : PlatformState ι Guest) : Side → List Packet
  | .qemu => s.log.servedByTcp.map Served.packet ++ s.tcp.served.toList
  | .systemC => s.log.executed.map Served.packet ++ s.dispatcher.toList

/-- The dispatcher of a side has the request and will answer it. -/
def PlatformState.InService (s : PlatformState ι Guest) (wiring : Wiring Guest) :
    Side → Packet → Prop
  | .qemu, request =>
      s.tcp = .serving request ∧
        ∃ thread, s.thread.serve wiring.mem (wiring.qemuVpt request.data) = some thread
  | .systemC, request =>
      s.dispatcher = some request ∧
        ∃ cpu resp, s.cpu.dispatch (wiring.systemCVpt request.data) = (cpu, .ok resp)

/-- No call is forgotten.  The requests of a side, no two of them equal, are those
that the peer's dispatcher took followed by those still on their way. -/
structure NoOrphans (wiring : Wiring Guest) (s : PlatformState ι Guest) : Prop where
  pending : ∀ side request, s.Waiting side request →
    request ∈ s.channel side ∨ s.InService wiring side.peer request ∨
      ∃ packet ∈ s.channel side.peer, packet.origin = .answer request.origin
  once : ∀ side, s.sent side =
    s.takenBy side.peer ++ (s.channel side).filter Packet.isRequest
  distinct : ∀ side, (s.sent side).Nodup

/-- What a party asks for can be answered: an access of QEMU's core, and a DMA request
that names no byte of the device's own window. -/
def Answerable (action : Action ι) : Prop :=
  match action with
  | .vcpuCall _ call => CoreAccess call.shape
  | .dmaCall stack transaction =>
      ∀ data, slaveRequest stack transaction = some data →
        meetsWindow data.addr data.length = false
  | _ => True

/-- The steps of an orderly run. -/
def Orderly (s : PlatformState ι Guest) (action : Action ι) : Prop :=
  NoCrossing s action ∧ Answerable action

variable {s : PlatformState ι Guest} {mmio dma : Call} {wiring : Wiring Guest}

/-! ## Requests in the channels -/

theorem isRequest_of_origin {packet : Packet} {side : Side} {id : Nat}
    (horigin : packet.origin = .request side id) : packet.isRequest = true := by
  rw [Packet.isRequest, horigin]

/-- The requests in a channel are those of the calls whose request is in flight. -/
theorem filter_isRequest (call other : Call)
    (hrequests : ∀ request ∈ call.inFlight, request.isRequest = true) :
    (other.replies ++ call.inFlight).filter Packet.isRequest = call.inFlight := by
  have hreplies : other.replies.filter Packet.isRequest = [] := by
    cases other <;> rfl
  rw [List.filter_append, hreplies, List.nil_append, List.filter_eq_self]
  exact hrequests

/-! ## Requests that can be answered -/

/-- `tcp_thread_func` comes back from serving the message. -/
def Servable (data : VpTransferData) : Prop :=
  copyReturns data.addr data.length = true

theorem serve_of_servable (mem : PhysicalMemory Guest) (thread : TcpThread Guest)
    {vpt : VpTransfer} (hservable : Servable vpt.data) :
    ∃ next, thread.serve mem vpt = some next := by
  unfold Servable at hservable
  unfold TcpThread.serve
  split
  · exact ⟨_, if_pos hservable⟩
  · exact ⟨_, if_pos hservable⟩
  · exact ⟨_, rfl⟩
  · exact ⟨_, rfl⟩

/-- The slave socket sends at most four bytes, so only the window is in the way. -/
theorem servable_of_slaveRequest {stack : BitVec 64} {trans : TlmPayload}
    {data : VpTransferData} (hsend : slaveRequest stack trans = some data)
    (hwindow : meetsWindow data.addr data.length = false) : Servable data := by
  have hlength : data.length.toNat ≤ sizeofValue := by
    unfold slaveRequest at hsend
    split at hsend
    · cases hsend
    · rename_i hchecks
      push Not at hchecks
      rcases hchecks with ⟨-, -, hlen, -⟩
      have hwidth : (trans.dataLength.setWidth 64).toNat ≤ sizeofValue := by
        rw [BitVec.toNat_setWidth]
        exact (Nat.mod_le _ _).trans (hlen.trans (by decide))
      split at hsend
      · obtain rfl := Option.some.inj hsend
        exact hwidth
      · obtain rfl := Option.some.inj hsend
        exact hwidth
      · cases hsend
  rw [Servable, copyReturns, hwindow, decide_eq_true hlength]
  rfl

/-- Everything asked for so far can be answered. -/
structure AllAnswerable (s : PlatformState ι Guest) : Prop where
  wanted : ∀ i data, s.vcpu i = .wantsLock data → CoreRequest data
  acquired : ∀ request ∈ s.log.acquired, CoreRequest request.data
  dma : ∀ request ∈ s.log.sentBySystemC, Servable request.data

/-! ## Coherent states -/

/-- A vCPU that waits. -/
theorem pending_qemu (h : Coherent s mmio dma) (hanswerable : AllAnswerable s)
    {request : Packet} (hwaiting : s.Waiting .qemu request) :
    request ∈ s.channel .qemu ∨ s.InService wiring .systemC request ∨
      ∃ packet ∈ s.channel .systemC, packet.origin = .answer request.origin := by
  have hcurrent := (receiving_iff_current h.lock request).mp hwaiting
  have hcaller : mmio.caller = some request := by
    rw [← h.linked.vcpu, PlatformState.current, hcurrent]
    rfl
  rcases Call.pending hcaller with hflight | hserved | ⟨response, hreply⟩
  · refine Or.inl ?_
    show request ∈ s.toSystemC
    rw [h.linked.toSystemC]
    exact List.mem_append_right _ hflight
  · -- `thread_process` has it, and the target accepts what QEMU's core asks for.
    have hsent : request ∈ s.log.sentByQemu :=
      mem_sentByQemu h.recorded (List.mem_append_left _ (Option.mem_toList.mpr hserved))
    have hcore : CoreRequest request.data := by
      apply hanswerable.acquired
      rw [h.recorded.acquired]
      exact List.mem_append_left _ hsent
    exact Or.inr (Or.inl ⟨h.linked.dispatcher.trans hserved, dispatch_coreRequest s.cpu hcore⟩)
  · refine Or.inr (Or.inr ⟨request.answerWith response, ?_, rfl⟩)
    show _ ∈ s.toQemu
    rw [h.linked.toQemu]
    exact List.mem_append_left _ hreply

/-- An initiator that waits. -/
theorem pending_systemC (h : Coherent s mmio dma) (hanswerable : AllAnswerable s)
    {request : Packet} (hwaiting : s.Waiting .systemC request) :
    request ∈ s.channel .systemC ∨ s.InService wiring .qemu request ∨
      ∃ packet ∈ s.channel .qemu, packet.origin = .answer request.origin := by
  have hcaller : dma.caller = some request := h.linked.initiator.symm.trans hwaiting
  rcases Call.pending hcaller with hflight | hserved | ⟨response, hreply⟩
  · refine Or.inl ?_
    show request ∈ s.toQemu
    rw [h.linked.toQemu]
    exact List.mem_append_right _ hflight
  · -- `tcp_thread_func` has it, and it names nothing that would block the thread.
    have hservable := hanswerable.dma request
      (mem_sentBySystemC h.recorded (List.mem_append_left _ (Option.mem_toList.mpr hserved)))
    have hserving : s.tcp = .serving request :=
      TcpPhase.eq_serving_of_served (h.linked.tcp.trans hserved)
    exact Or.inr (Or.inl ⟨hserving, serve_of_servable wiring.mem s.thread hservable⟩)
  · refine Or.inr (Or.inr ⟨request.answerWith response, ?_, rfl⟩)
    show _ ∈ s.toSystemC
    rw [h.linked.toSystemC]
    exact List.mem_append_left _ hreply

theorem noOrphans_of_coherent (h : Coherent s mmio dma) (hanswerable : AllAnswerable s) :
    NoOrphans wiring s := by
  have hmmio : ∀ request ∈ mmio.inFlight, request.isRequest = true := by
    intro request hrequest
    obtain ⟨id, hid⟩ := origin_sentByQemu h.recorded
      (mem_sentByQemu h.recorded (List.mem_append_right _ hrequest))
    exact isRequest_of_origin hid
  have hdma : ∀ request ∈ dma.inFlight, request.isRequest = true := by
    intro request hrequest
    obtain ⟨id, hid⟩ := origin_sentBySystemC h.recorded
      (mem_sentBySystemC h.recorded (List.mem_append_right _ hrequest))
    exact isRequest_of_origin hid
  constructor
  case pending =>
    intro side request hwaiting
    cases side with
    | qemu => exact pending_qemu h hanswerable hwaiting
    | systemC => exact pending_systemC h hanswerable hwaiting
  case once =>
    intro side
    cases side with
    | qemu =>
        show s.log.sentByQemu = (_ ++ s.dispatcher.toList) ++ s.toSystemC.filter _
        rw [h.linked.toSystemC, filter_isRequest mmio dma hmmio, h.linked.dispatcher,
          h.recorded.sentByQemu, List.append_assoc]
    | systemC =>
        show s.log.sentBySystemC = (_ ++ s.tcp.served.toList) ++ s.toQemu.filter _
        rw [h.linked.toQemu, filter_isRequest dma mmio hdma, h.linked.tcp,
          h.recorded.sentBySystemC, List.append_assoc]
  case distinct =>
    intro side
    cases side with
    | qemu =>
        -- The sent requests are a part of the acquired ones, which are numbered.
        have hacquired := List.Nodup.of_map _ (nodup_origin_of_numbered h.recorded.numbered)
        rw [h.recorded.acquired] at hacquired
        exact hacquired.of_append_left
    | systemC => exact List.Nodup.of_map _ (nodup_origin_of_numbered h.recorded.numberedDma)

/-! ## Orderly runs -/

variable [DecidableEq ι]

/-- Changing one vCPU's phase to one that does not want the mutex. -/
theorem wanted_update {vcpu : ι → VcpuPhase} {i : ι} {phase : VcpuPhase}
    (hwanted : ∀ j data, vcpu j = .wantsLock data → CoreRequest data)
    (hphase : ∀ data, phase = .wantsLock data → CoreRequest data) :
    ∀ j data, Function.update vcpu i phase j = .wantsLock data → CoreRequest data := by
  intro j data hdata
  by_cases hj : j = i
  · rw [hj, Function.update_self] at hdata
    exact hphase data hdata
  · rw [Function.update_of_ne hj] at hdata
    exact hwanted j data hdata

theorem allAnswerable_step {next : PlatformState ι Guest} {action : Action ι}
    (h : AllAnswerable s) (hguard : Answerable action)
    (hstep : step wiring s action = some next) : AllAnswerable next := by
  cases step_effect wiring hstep with
  | vcpuCall i call hphase =>
      refine { h with wanted := wanted_update h.wanted fun data hdata => ?_ }
      cases hdata
      exact ⟨call, hguard, rfl⟩
  | vcpuLock i data request hphase hfree hrequest =>
      refine { h with wanted := wanted_update h.wanted nofun, acquired := ?_ }
      show ∀ packet ∈ s.log.acquired ++ [request], CoreRequest packet.data
      rw [List.forall_mem_append, List.forall_mem_singleton]
      refine ⟨h.acquired, ?_⟩
      rw [hrequest]
      exact h.wanted i data hphase
  | vcpuSend i request hphase => exact { h with wanted := wanted_update h.wanted nofun }
  | vcpuRecv i request packet rest hphase hchannel =>
      exact { h with wanted := wanted_update h.wanted nofun }
  | vcpuUnlock i hphase => exact { h with wanted := wanted_update h.wanted nofun }
  | dmaCall stack trans data request hfree hsend hrequest =>
      refine { h with dma := ?_ }
      show ∀ packet ∈ s.log.sentBySystemC ++ [request], Servable packet.data
      rw [List.forall_mem_append, List.forall_mem_singleton]
      refine ⟨h.dma, ?_⟩
      rw [hrequest]
      exact servable_of_slaveRequest hsend (hguard data hsend)
  | tcpLock | tcpIdle | tcpTake | tcpServe | scIdle | scTake | scServe | dmaRecv =>
      exact { h with }

theorem orderly_reachable {thread : TcpThread Guest} {cpu : QemuCpu}
    (hreach : ReachableUnder (step wiring) Orderly (PlatformState.initial thread cpu) s) :
    (∃ mmio dma, Coherent s mmio dma) ∧ AllAnswerable s := by
  have hkeep : ∀ (before : PlatformState ι Guest) action next,
      ((∃ mmio dma, Coherent before mmio dma) ∧ AllAnswerable before) →
        Orderly before action → step wiring before action = some next →
          (∃ mmio dma, Coherent next mmio dma) ∧ AllAnswerable next := by
    rintro before action next ⟨⟨mmio, dma, h⟩, hanswerable⟩ ⟨hguard, haction⟩ hstep
    exact ⟨coherent_step h hguard hstep, allAnswerable_step hanswerable haction hstep⟩
  exact invariant_reachableUnder hkeep
    ⟨⟨.idle, .idle, coherent_initial thread cpu⟩, ⟨nofun, nofun, nofun⟩⟩ hreach

/-- In every orderly run no caller is forgotten; and one `recv` after the first crossing
an initiator is. -/
theorem noOrphans_in_orderly_runs (wiring : Wiring Guest) (thread : TcpThread Guest)
    (cpu : QemuCpu) :
    (∀ s : PlatformState ι Guest,
      ReachableUnder (step wiring) Orderly (PlatformState.initial thread cpu) s →
        NoOrphans wiring s) ∧
      ∀ (s next : PlatformState ι Guest) action,
        ReachableUnder (step wiring) Orderly (PlatformState.initial thread cpu) s →
          step wiring s action = some next → ¬NoCrossing s action →
            ∃ i final, step wiring next (.vcpuRecv i) = some final ∧
              ¬NoOrphans wiring final := by
  constructor
  · intro s hreach
    obtain ⟨⟨mmio, dma, h⟩, hanswerable⟩ := orderly_reachable hreach
    exact noOrphans_of_coherent h hanswerable
  · intro s next action hreach hstep hcross
    obtain ⟨⟨mmio, dma, h⟩, -⟩ := orderly_reachable hreach
    obtain ⟨i, own, other, id, hcrossed⟩ := crossed_of_crossing h hstep hcross
    refine ⟨i, _, hcrossed.recv, fun hnone => ?_⟩
    -- The initiator still waits; its request is with nobody and no answer comes.
    rcases hnone.pending .systemC other hcrossed.initiator with
      hflight | ⟨hserving, -⟩ | ⟨packet, hpacket, hanswer⟩
    · cases hflight
    · have hserved := hcrossed.tcp
      rw [show next.tcp = .serving other from hserving] at hserved
      cases hserved
    · exact hcrossed.toSystemC packet hpacket hanswer

end Orphans

/-- The initiator has its answer, and the dispatcher has the vCPU's request. -/
theorem noOrphans_orderlyRun :
    ∃ s, runFrom (step demoWiring) (PlatformState.initial idleThread zeroCpu) orderlyRun =
        some s ∧ s.dispatcher.isSome = true ∧ NoOrphans demoWiring s := by
  have hanswerable : ∀ action ∈ orderlyRun, ∀ _ : PlatformState Unit ByteStore,
      Answerable action := by
    have hread : CoreAccess (MmioCall.read 0 4).shape :=
      ⟨Or.inr (Or.inr rfl), rfl, show 0 + 4 ≤ mmioSize by decide⟩
    have hslave : Answerable (Action.dmaCall 0 (slaveRead 0x30000000) : Action Unit) := by
      have hsend : slaveRequest 0 (slaveRead 0x30000000) =
          some (slaveReadRequest (slaveRead 0x30000000)) := by decide
      intro data hdata
      obtain rfl := Option.some.inj (hsend.symm.trans hdata)
      decide
    simp only [orderlyRun, List.forall_mem_cons]
    exact ⟨fun _ => hread, fun _ => hslave, fun _ => trivial, fun _ => trivial, fun _ => trivial,
      fun _ => trivial, fun _ => trivial, fun _ => trivial, fun _ => trivial, nofun⟩
  exact ⟨_, rfl, rfl, (noOrphans_in_orderly_runs demoWiring idleThread zeroCpu).1 _
    ⟨orderlyRun, orderlyRun_noCrossing.and_forall_mem hanswerable, rfl⟩⟩

/-- After the nested call the initiator is blocked, nothing is on its way, and neither
dispatcher serves its request. -/
theorem nested_initiator_is_orphaned :
    ∃ s request, runFrom (step demoWiring) (PlatformState.initial idleThread zeroCpu)
        nestedRun = some s ∧
      s.initiator = some request ∧ s.toQemu = [] ∧ s.toSystemC = [] ∧ s.tcp = .condWait ∧
      ¬NoOrphans demoWiring s := by
  refine ⟨_, _, rfl, rfl, rfl, rfl, rfl, fun hnone => ?_⟩
  rcases hnone.pending .systemC _ rfl with hflight | ⟨hserving, -⟩ | ⟨packet, hpacket, -⟩
  · cases hflight
  · cases hserving
  · cases hpacket

end Platform
end AislabVP
