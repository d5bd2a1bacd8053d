import AislabVP.Platform.Exclusive
import Mathlib.Algebra.BigOperators.Group.Finset.Piecewise
import Mathlib.Data.Fintype.Basic

/-!
# Every MMIO call comes to its end

In the build without DMA a call takes six steps after its arguments are filled in: the
vCPU locks the mutex, sends, `thread_process` takes the request and serves it, the vCPU
receives and unlocks.  Besides these only `tcp_thread_func` does anything: it locks the
mutex, polls and unlocks, as often as it likes.

So there is no livelock: no schedule gives the calls of a run more than six steps
each (`Progressing.steps`).  And there is no deadlock: as long as a call is open, one of its
steps is possible, unless the polling thread has the mutex, and then the next poll
gives it up (`Progressing.unblocked`).  Whatever has happened, all calls can be brought to
their end (`Progressing.drains`).
-/

namespace AislabVP
namespace Platform

open Foundation Vpipc Qemu SystemC

section Steps

variable {ι : Type*}

/-- A step of the build without DMA, with the calls that QEMU's core makes. -/
def PlainMmio {Guest : Type*} (_ : PlatformState ι Guest) : Action ι → Prop
  | .dmaCall _ _ => False
  | .vcpuCall _ call => CoreAccess call.shape
  | .vcpuLock _ | .vcpuSend _ | .vcpuRecv _ | .vcpuUnlock _ | .tcpLock | .tcpPoll _ | .tcpServe
  | .scPoll _ | .scServe | .dmaRecv => True

/-- A step that carries a call on. -/
@[simp] def Action.carries : Action ι → Bool
  | .vcpuLock _ | .vcpuSend _ | .vcpuRecv _ | .vcpuUnlock _ | .scPoll true | .scServe => true
  | .vcpuCall _ _ | .tcpLock | .tcpPoll _ | .tcpServe | .scPoll false | .dmaCall _ _
  | .dmaRecv => false

/-- The step that begins a call. -/
@[simp] def Action.calls : Action ι → Bool
  | .vcpuCall _ _ => true
  | .vcpuLock _ | .vcpuSend _ | .vcpuRecv _ | .vcpuUnlock _ | .tcpLock | .tcpPoll _ | .tcpServe
  | .scPoll _ | .scServe | .dmaCall _ _ | .dmaRecv => false

/-- The steps that a vCPU is away from the end of its call, without those of
`thread_process` when it has sent its request. -/
@[simp] def VcpuPhase.stepsLeft : VcpuPhase → Nat
  | .idle => 0
  | .wantsLock _ => 6
  | .sending _ => 5
  | .receiving _ => 2
  | .unlocking => 1

/-- The calls of a vCPU that have not got their answer. -/
@[simp] def VcpuPhase.callsOpen : VcpuPhase → Nat
  | .wantsLock _ | .sending _ | .receiving _ => 1
  | .idle | .unlocking => 0

/-- The message that a vCPU is about to send or has sent. -/
def VcpuPhase.message : VcpuPhase → Option VpTransferData
  | .wantsLock data => some data
  | .sending request => some request.data
  | .receiving request => some request.data
  | .idle | .unlocking => none

end Steps

/-! ## The build without DMA -/

section PlainStates

variable {ι Guest : Type*}

/-- What holds of every state of the build without DMA. -/
structure Plain (s : PlatformState ι Guest) (mmio : Call) : Prop where
  free : s.initiator = none
  coherent : Coherent s mmio .idle
  core : ∀ i data, (s.vcpu i).message = some data → CoreRequest data

variable {wiring : Wiring Guest} {s next : PlatformState ι Guest} {mmio : Call}

/-- A step of the build without DMA is one without initiators. -/
theorem noDma_of_plainMmio {action : Action ι} (hguard : PlainMmio s action) :
    NoDma s action := by
  cases action with
  | dmaCall => exact hguard
  | vcpuCall | vcpuLock | vcpuSend | vcpuRecv | vcpuUnlock | tcpLock | tcpPoll | tcpServe | scPoll
  | scServe | dmaRecv => trivial

/-- The poll of `tcp_thread_func` finds nothing. -/
theorem Plain.poll_finds_nothing (h : Plain s mmio) (hphase : s.tcp = .polling) :
    s.toQemu = [] := by
  have hcurrent : s.current = .idle :=
    current_of_tcp_holdsLock h.coherent.lock (by rw [hphase]; rfl)
  obtain rfl := mmio_idle h.coherent.linked (by rw [hcurrent]; rfl)
  exact h.coherent.linked.toQemu

theorem Plain.not_serving (h : Plain s mmio) (packet : Packet) : s.tcp ≠ .serving packet := by
  intro hserving
  have htcp := h.coherent.linked.tcp
  rw [hserving] at htcp
  cases htcp

variable [DecidableEq ι]

/-- A vCPU moves on with the message it has. -/
theorem core_update {i : ι} {phase : VcpuPhase}
    (hcore : ∀ j data, (s.vcpu j).message = some data → CoreRequest data)
    (hphase : ∀ data, phase.message = some data → CoreRequest data) (j : ι)
    (data : VpTransferData) (hmessage : (Function.update s.vcpu i phase j).message = some data) :
    CoreRequest data := by
  by_cases hsame : j = i
  · subst hsame
    rw [Function.update_self] at hmessage
    exact hphase data hmessage
  · rw [Function.update_of_ne hsame] at hmessage
    exact hcore j data hmessage

/-- The messages of the vCPUs are requests of QEMU's core. -/
theorem core_step {action : Action ι} (h : Plain s mmio) (hguard : PlainMmio s action)
    (hstep : step wiring s action = some next) (j : ι) (data : VpTransferData)
    (hmessage : (next.vcpu j).message = some data) : CoreRequest data := by
  cases step_effect wiring hstep with
  | vcpuCall i call hphase =>
      refine core_update h.core (fun other hother => ?_) j data hmessage
      obtain rfl := Option.some.inj hother
      exact ⟨call, hguard, rfl⟩
  | vcpuLock i message request hphase hfree hrequest =>
      refine core_update h.core (fun other hother => ?_) j data hmessage
      refine h.core i other ?_
      rw [hphase, ← hother, hrequest]
      rfl
  | vcpuSend i request hphase =>
      refine core_update h.core (fun other hother => ?_) j data hmessage
      refine h.core i other ?_
      rw [hphase, ← hother]
      rfl
  | vcpuRecv i request packet rest hphase hchannel =>
      refine core_update h.core (fun other hother => ?_) j data hmessage
      cases hother
  | vcpuUnlock i hphase =>
      refine core_update h.core (fun other hother => ?_) j data hmessage
      cases hother
  | dmaCall => exact absurd hguard id
  | tcpLock | tcpIdle | tcpTake | tcpServe | scIdle | scTake | scServe | dmaRecv =>
      exact h.core j data hmessage

theorem plain_step {action : Action ι} (h : Plain s mmio) (hguard : PlainMmio s action)
    (hstep : step wiring s action = some next) : ∃ mmio', Plain next mmio' := by
  have hnoDma := noDma_of_plainMmio hguard
  have hfree := initiator_step h.free hnoDma hstep
  obtain ⟨mmio', dma', hcoherent⟩ :=
    coherent_step h.coherent (noCrossing_of_noDma h.free hnoDma) hstep
  obtain rfl := dma_idle hcoherent.linked hfree
  exact ⟨mmio', hfree, hcoherent, core_step h hguard hstep⟩

end PlainStates

/-! ## Counting -/

section Counting

variable {ι Guest : Type*} [Fintype ι]

/-- The steps that are left for the calls that have begun. -/
def PlatformState.stepsLeft (s : PlatformState ι Guest) : Nat :=
  ∑ i, (s.vcpu i).stepsLeft + (2 * s.toSystemC.length + s.dispatcher.toList.length)

/-- The calls that have not got their answer. -/
def PlatformState.callsOpen (s : PlatformState ι Guest) : Nat :=
  ∑ i, (s.vcpu i).callsOpen

/-- Where the calls of a run that has led to this state stand. -/
structure Progressing [DecidableEq ι] (wiring : Wiring Guest) (actions : List (Action ι))
    (s : PlatformState ι Guest) : Prop where
  steps : s.stepsLeft + actions.countP Action.carries = 6 * actions.countP Action.calls
  returned : s.callsOpen + s.log.returnedToQemu.length = actions.countP Action.calls
  unblocked : s.owner ≠ some .tcpThread →
    (∀ action, action.carries = true → step wiring s action = none) → ∀ i, s.vcpu i = .idle
  drains : ∃ more final, (∀ action ∈ more, action.carries = true ∨ action = .tcpPoll false) ∧
    more.length ≤ s.stepsLeft + 1 ∧ runFrom (step wiring) s more = some final ∧
    (∀ i, final.vcpu i = .idle) ∧
    final.log.returnedToQemu.length = actions.countP Action.calls

variable [DecidableEq ι]

/-- One vCPU moves on. -/
theorem sum_update_vcpu (measure : VcpuPhase → Nat) {vcpu : ι → VcpuPhase} {i : ι}
    {before : VcpuPhase} (hphase : vcpu i = before) (phase : VcpuPhase) :
    ∑ j, measure (Function.update vcpu i phase j) + measure before =
      ∑ j, measure (vcpu j) + measure phase := by
  have hupdate : (fun j => measure (Function.update vcpu i phase j)) =
      Function.update (fun j => measure (vcpu j)) i (measure phase) :=
    Function.comp_update measure vcpu i phase
  rw [hupdate, Finset.sum_update_of_mem (Finset.mem_univ i), Finset.sdiff_singleton_eq_erase,
    ← Finset.add_sum_erase _ _ (Finset.mem_univ i), hphase]
  omega

variable {wiring : Wiring Guest} {s next : PlatformState ι Guest} {mmio : Call}

/-- A step that carries a call on is one step less, and a new call has six. -/
theorem stepsLeft_step {action : Action ι} (h : Plain s mmio) (hguard : PlainMmio s action)
    (hstep : step wiring s action = some next) :
    next.stepsLeft + (if action.carries then 1 else 0) =
      s.stepsLeft + (if action.calls then 6 else 0) := by
  cases step_effect wiring hstep with
  | vcpuCall i call hphase =>
      have hsum := sum_update_vcpu VcpuPhase.stepsLeft hphase (.wantsLock call.request)
      simp [PlatformState.stepsLeft] at hsum ⊢
      omega
  | vcpuLock i message request hphase hfree hrequest =>
      have hsum := sum_update_vcpu VcpuPhase.stepsLeft hphase (.sending request)
      simp [PlatformState.stepsLeft] at hsum ⊢
      omega
  | vcpuSend i request hphase =>
      have hsum := sum_update_vcpu VcpuPhase.stepsLeft hphase (.receiving request)
      simp [PlatformState.stepsLeft] at hsum ⊢
      omega
  | vcpuRecv i request packet rest hphase hchannel =>
      have hsum := sum_update_vcpu VcpuPhase.stepsLeft hphase .unlocking
      simp [PlatformState.stepsLeft] at hsum ⊢
      omega
  | vcpuUnlock i hphase =>
      have hsum := sum_update_vcpu VcpuPhase.stepsLeft hphase .idle
      simp [PlatformState.stepsLeft] at hsum ⊢
      omega
  | scTake packet rest hfree hphase hchannel =>
      simp [PlatformState.stepsLeft, hphase, hchannel]
      omega
  | scServe packet cpu resp hfree hphase hserve =>
      simp [PlatformState.stepsLeft, hphase]
      omega
  | tcpLock | tcpIdle | tcpTake | scIdle => rfl
  -- The polling thread has nothing to serve, and there are no initiators.
  | tcpServe packet thread hphase hserve => exact absurd hphase (h.not_serving packet)
  | dmaCall => exact absurd hguard id
  | dmaRecv request packet rest hphase hchannel => cases h.free.symm.trans hphase

/-- A call is open until it returns. -/
theorem callsOpen_step {action : Action ι} (h : Plain s mmio) (hguard : PlainMmio s action)
    (hstep : step wiring s action = some next) :
    next.callsOpen + next.log.returnedToQemu.length =
      s.callsOpen + s.log.returnedToQemu.length + (if action.calls then 1 else 0) := by
  cases step_effect wiring hstep with
  | vcpuCall i call hphase =>
      have hsum := sum_update_vcpu VcpuPhase.callsOpen hphase (.wantsLock call.request)
      simp [PlatformState.callsOpen] at hsum ⊢
      omega
  | vcpuLock i message request hphase hfree hrequest =>
      have hsum := sum_update_vcpu VcpuPhase.callsOpen hphase (.sending request)
      simp [PlatformState.callsOpen] at hsum ⊢
      omega
  | vcpuSend i request hphase =>
      have hsum := sum_update_vcpu VcpuPhase.callsOpen hphase (.receiving request)
      simp [PlatformState.callsOpen] at hsum ⊢
      omega
  | vcpuRecv i request packet rest hphase hchannel =>
      have hsum := sum_update_vcpu VcpuPhase.callsOpen hphase .unlocking
      simp [PlatformState.callsOpen] at hsum ⊢
      omega
  | vcpuUnlock i hphase =>
      have hsum := sum_update_vcpu VcpuPhase.callsOpen hphase .idle
      simp [PlatformState.callsOpen] at hsum ⊢
      omega
  | tcpLock | tcpIdle | tcpTake | tcpServe | scIdle | scTake | scServe => rfl
  | dmaCall => exact absurd hguard id
  | dmaRecv request packet rest hphase hchannel => cases h.free.symm.trans hphase

/-! ## No deadlock -/

variable (wiring)

omit [Fintype ι] in
/-- The call of the vCPU that has the mutex can be carried on. -/
theorem Plain.carries_receiving (h : Plain s mmio) {i : ι} {request : Packet}
    (hphase : s.vcpu i = .receiving request) :
    ∃ action, action.carries = true ∧ (step wiring s action).isSome = true := by
  have hcurrent := (current_of_holdsLock h.coherent.lock hphase rfl).2
  have hcaller : mmio.caller = some request := by
    rw [← h.coherent.linked.vcpu, PlatformState.current, hcurrent]
    rfl
  have htoQemu : s.toQemu = mmio.replies ++ [] := h.coherent.linked.toQemu
  cases mmio with
  | idle => cases hcaller
  | requested other =>
      have hdispatcher : s.dispatcher = none := h.coherent.linked.dispatcher
      have hchannel : s.toSystemC = [other] := h.coherent.linked.toSystemC
      exact ⟨.scPoll true, rfl, by simp only [step, h.free, hdispatcher, hchannel]; rfl⟩
  | taken other =>
      obtain rfl := Option.some.inj hcaller
      have hdispatcher : s.dispatcher = some other := h.coherent.linked.dispatcher
      have hcore := h.core i other.data (by rw [hphase]; rfl)
      obtain ⟨cpu, resp, hserve⟩ := @dispatch_coreRequest _ wiring s.cpu _ hcore
      exact ⟨.scServe, rfl, by simp only [step, h.free, hdispatcher, hserve]; rfl⟩
  | answered other response =>
      have hchannel : s.toQemu = [other.answerWith response] := htoQemu
      exact ⟨.vcpuRecv i, rfl, by simp only [step, hphase, hchannel]; rfl⟩

omit [Fintype ι] in
/-- While the polling thread does not have the mutex, an open call can be carried on: that of
the vCPU that has the mutex, or any other when it is free. -/
theorem Plain.carries_of_busy (h : Plain s mmio) (howner : s.owner ≠ some .tcpThread) {i : ι}
    (hbusy : s.vcpu i ≠ .idle) :
    ∃ action, action.carries = true ∧ (step wiring s action).isSome = true := by
  cases hheld : s.owner with
  | none =>
      have hfree : (s.vcpu i).holdsLock = false := by
        by_contra hholds
        cases hheld.symm.trans ((h.coherent.lock.vcpu i).mp (Bool.not_eq_false _ ▸ hholds))
      cases hphase : s.vcpu i with
      | idle => exact absurd hphase hbusy
      | wantsLock data => exact ⟨.vcpuLock i, rfl, by simp only [step, hphase, hheld]; rfl⟩
      | sending | receiving | unlocking =>
          rw [hphase] at hfree
          cases hfree
  | some who =>
      cases who with
      | tcpThread => exact absurd hheld howner
      | vcpu j =>
          have hholds := (h.coherent.lock.vcpu j).mpr hheld
          cases hphase : s.vcpu j with
          | idle | wantsLock =>
              rw [hphase] at hholds
              cases hholds
          | sending request => exact ⟨.vcpuSend j, rfl, by simp only [step, hphase]; rfl⟩
          | receiving request => exact h.carries_receiving wiring hphase
          | unlocking => exact ⟨.vcpuUnlock j, rfl, by simp only [step, hphase]; rfl⟩

omit [Fintype ι] [DecidableEq ι] in
theorem plainMmio_of_carries (s : PlatformState ι Guest) {action : Action ι}
    (hcarries : action.carries = true) :
    PlainMmio s action ∧ action.calls = false := by
  cases action with
  | vcpuCall | dmaCall => cases hcarries
  | vcpuLock | vcpuSend | vcpuRecv | vcpuUnlock | tcpLock | tcpPoll | tcpServe | scPoll | scServe
  | dmaRecv => exact ⟨trivial, rfl⟩

omit [Fintype ι] in
/-- Such a step does not give the mutex to the polling thread. -/
theorem owner_of_carries {action : Action ι} (hcarries : action.carries = true)
    (howner : s.owner ≠ some .tcpThread) (hstep : step wiring s action = some next) :
    next.owner ≠ some .tcpThread := by
  cases step_effect wiring hstep with
  | vcpuLock | vcpuUnlock => exact nofun
  | vcpuSend | vcpuRecv | scTake | scServe => exact howner
  | vcpuCall | tcpLock | tcpIdle | tcpTake | tcpServe | scIdle | dmaCall | dmaRecv =>
      cases hcarries

/-- All calls come to their end, by induction on the steps that are left. -/
theorem Plain.drains (h : Plain s mmio) (howner : s.owner ≠ some .tcpThread) :
    ∃ more final, (∀ action ∈ more, action.carries = true) ∧ more.length ≤ s.stepsLeft ∧
      runFrom (step wiring) s more = some final ∧ (∀ i, final.vcpu i = .idle) ∧
      final.log.returnedToQemu.length = s.callsOpen + s.log.returnedToQemu.length := by
  induction hleft : s.stepsLeft using Nat.strong_induction_on generalizing s mmio with
  | _ left ih =>
      by_cases hbusy : ∃ i, s.vcpu i ≠ .idle
      · obtain ⟨i, hbusy⟩ := hbusy
        obtain ⟨action, hcarries, henabled⟩ := h.carries_of_busy wiring howner hbusy
        obtain ⟨next, hstep⟩ := Option.isSome_iff_exists.mp henabled
        obtain ⟨hplain, hcalls⟩ := plainMmio_of_carries s hcarries
        have hsteps := stepsLeft_step h hplain hstep
        have hopen := callsOpen_step h hplain hstep
        rw [hcarries, hcalls] at hsteps
        rw [hcalls] at hopen
        simp only [if_true, Bool.false_eq_true, if_false, Nat.add_zero] at hsteps hopen
        obtain ⟨mmio', hnext⟩ := plain_step h hplain hstep
        obtain ⟨more, final, hmore, hlength, hrun, hidle, hreturned⟩ :=
          ih next.stepsLeft (by omega) hnext (owner_of_carries wiring hcarries howner hstep) rfl
        refine ⟨action :: more, final, ?_, ?_, runFrom_cons_eq_some.mpr ⟨next, hstep, hrun⟩,
          hidle, hreturned.trans hopen⟩
        · rw [List.forall_mem_cons]
          exact ⟨hcarries, hmore⟩
        · rw [List.length_cons]
          omega
      · have hidle : ∀ i, s.vcpu i = .idle := fun i => not_not.mp fun hi => hbusy ⟨i, hi⟩
        refine ⟨[], s, nofun, Nat.zero_le _, rfl, hidle, ?_⟩
        have hnone : s.callsOpen = 0 := by
          refine Finset.sum_eq_zero fun i _ => ?_
          rw [hidle i]
          rfl
        rw [hnone, Nat.zero_add]

/-- The polling thread gives the mutex up at its next poll. -/
theorem Plain.drains_after_poll (h : Plain s mmio) :
    ∃ more final, (∀ action ∈ more, action.carries = true ∨ action = .tcpPoll false) ∧
      more.length ≤ s.stepsLeft + 1 ∧ runFrom (step wiring) s more = some final ∧
      (∀ i, final.vcpu i = .idle) ∧
      final.log.returnedToQemu.length = s.callsOpen + s.log.returnedToQemu.length := by
  by_cases howner : s.owner = some .tcpThread
  · have hpolling : s.tcp = .polling := by
      have hholds := h.coherent.lock.tcp.mpr howner
      cases hphase : s.tcp with
      | polling => rfl
      | condWait =>
          rw [hphase] at hholds
          cases hholds
      | serving packet => exact absurd hphase (h.not_serving packet)
    have hstep : step wiring s (.tcpPoll false) =
        some { s with owner := none, tcp := .condWait } := by
      simp only [step, hpolling]
    have hpoll : PlainMmio s (.tcpPoll false) := trivial
    obtain ⟨mmio', hnext⟩ := plain_step h hpoll hstep
    obtain ⟨more, final, hmore, hlength, hrun, hidle, hreturned⟩ :=
      hnext.drains wiring (by simp)
    refine ⟨.tcpPoll false :: more, final, ?_, Nat.succ_le_succ hlength,
      runFrom_cons_eq_some.mpr ⟨_, hstep, hrun⟩, hidle, hreturned⟩
    rw [List.forall_mem_cons]
    exact ⟨Or.inr rfl, fun action haction => Or.inl (hmore action haction)⟩
  · obtain ⟨more, final, hmore, hlength, hrun, hidle, hreturned⟩ :=
      h.drains wiring howner
    exact ⟨more, final, fun action haction => Or.inl (hmore action haction),
      Nat.le_succ_of_le hlength, hrun, hidle, hreturned⟩

/-! ## The result -/

/-- In the build without DMA, under any schedule and with any number of vCPUs, the calls make
progress and all of them can be brought to their end. -/
theorem progressing_of_run (wiring : Wiring Guest) (thread : TcpThread Guest) (cpu : QemuCpu)
    (actions : List (Action ι)) (s : PlatformState ι Guest)
    (hguard : GuardedRun (step wiring) PlainMmio (PlatformState.initial thread cpu) actions)
    (hrun : runFrom (step wiring) (PlatformState.initial thread cpu) actions = some s) :
    Progressing wiring actions s := by
  have hstart : ∃ mmio, Plain (PlatformState.initial thread cpu : PlatformState ι Guest) mmio :=
    ⟨.idle, rfl, coherent_initial thread cpu, nofun⟩
  have hkeep : ∀ (before : PlatformState ι Guest) action next, (∃ mmio, Plain before mmio) →
      PlainMmio before action → step wiring before action = some next →
        ∃ mmio, Plain next mmio := by
    rintro before action next ⟨mmio, h⟩ hplain hstep
    exact plain_step h hplain hstep
  obtain ⟨mmio, h⟩ := invariant_runFrom hkeep hstart hguard hrun
  have hsteps : ∀ (before : PlatformState ι Guest) action next, (∃ mmio, Plain before mmio) →
      PlainMmio before action → step wiring before action = some next →
        next.stepsLeft + (if action.carries then 1 else 0) =
          before.stepsLeft + (if action.calls then 6 else 0) := by
    rintro before action next ⟨mmio, hbefore⟩ hplain hstep
    exact stepsLeft_step hbefore hplain hstep
  have hcalls : ∀ (before : PlatformState ι Guest) action next, (∃ mmio, Plain before mmio) →
      PlainMmio before action → step wiring before action = some next →
        next.callsOpen + next.log.returnedToQemu.length + (if false then 1 else 0) =
          before.callsOpen + before.log.returnedToQemu.length +
            (if action.calls then 1 else 0) := by
    rintro before action next ⟨mmio, hbefore⟩ hplain hstep
    exact callsOpen_step hbefore hplain hstep
  have hreturned : s.callsOpen + s.log.returnedToQemu.length = actions.countP Action.calls := by
    simpa [PlatformState.callsOpen, PlatformState.initial, History.empty] using
      balance_runFrom hkeep hcalls hstart hguard hrun
  constructor
  case steps =>
    simpa [PlatformState.stepsLeft, PlatformState.initial] using
      balance_runFrom hkeep hsteps hstart hguard hrun
  case returned => exact hreturned
  case unblocked =>
    intro howner hblocked i
    by_contra hbusy
    obtain ⟨action, hcarries, henabled⟩ := h.carries_of_busy wiring howner hbusy
    rw [hblocked action hcarries] at henabled
    cases henabled
  case drains =>
    obtain ⟨more, final, hmore, hlength, hmoreRun, hidle, hfinal⟩ :=
      h.drains_after_poll wiring
    exact ⟨more, final, hmore, hlength, hmoreRun, hidle, hfinal.trans hreturned⟩

end Counting

/-- The two calls of the demo: one has returned, and the other one is three steps from its
end. -/
theorem progressing_twoCalls :
    ∃ s, runFrom (step demoWiring) (PlatformState.initial idleThread zeroCpu) twoCalls =
        some s ∧ s.stepsLeft = 3 ∧ Progressing demoWiring twoCalls s := by
  have hread : CoreAccess (MmioCall.read 4 4).shape := ⟨by decide, by decide, by decide⟩
  have hwrite : CoreAccess (MmioCall.write 0 7 4).shape := ⟨by decide, by decide, by decide⟩
  have hguard : GuardedRun (step demoWiring) PlainMmio
      (PlatformState.initial idleThread zeroCpu) twoCalls := by
    apply guardedRun_of_forall_mem
    simp [twoCalls, PlainMmio]
    exact ⟨fun _ => hwrite, fun _ => hread⟩
  exact ⟨_, rfl, rfl, progressing_of_run demoWiring idleThread zeroCpu twoCalls _ hguard rfl⟩

end Platform
end AislabVP
