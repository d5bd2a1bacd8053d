import AislabVP.Platform.Protocol
import Mathlib.Data.List.Range

/-!
# The calls behind the messages

At most one `vp_b_transfer` call of each side can be waiting at a time: `dev->mutex`
sees to it in QEMU, and a blocked `recv` stops SystemC.  So a state of the platform
has an abstract reading: the call of each side is idle, or its request is in the
channel, or the peer's dispatcher has taken it, or its answer is in the channel.

`Coherent` says that the channels, the dispatchers and the logs are what these two
abstract calls make them.  It needs that never both calls are unanswered, because
then each `recv` would find the peer's request first.  `NoCrossing` is the condition
on a step that keeps this, and under it `Coherent` is an invariant
(`coherent_step`).
-/

namespace AislabVP
namespace Platform

open Foundation Vpipc Qemu SystemC

/-! ## The abstract call -/

/-- The call of one side. -/
inductive Call where
  | idle
  | requested (request : Packet)
  | taken (request : Packet)
  | answered (request : Packet) (response : VpTransferData)
  deriving DecidableEq, Repr

/-- The request of the call that waits. -/
def Call.caller : Call → Option Packet
  | .idle => none
  | .requested request => some request
  | .taken request => some request
  | .answered request _ => some request

/-- The request while it is in the channel. -/
def Call.inFlight : Call → List Packet
  | .requested request => [request]
  | .idle | .taken _ | .answered _ _ => []

/-- The request while the peer's dispatcher has it. -/
def Call.served : Call → Option Packet
  | .taken request => some request
  | .idle | .requested _ | .answered _ _ => none

/-- The answer while it is in the channel. -/
def Call.replies : Call → List Packet
  | .answered request response => [request.answerWith response]
  | .idle | .requested _ | .taken _ => []

/-- Nothing is left for the peer to do. -/
def Call.Settled (call : Call) : Prop := call.inFlight = [] ∧ call.served = none

theorem Call.eq_idle_of_caller {call : Call} (hcaller : call.caller = none) :
    call = .idle := by
  cases call <;> first | rfl | cases hcaller

theorem Call.eq_taken_of_served {call : Call} {packet : Packet}
    (hserved : call.served = some packet) : call = .taken packet := by
  cases call <;> cases hserved
  rfl

/-- The call of a message that is in the channel without an answer before it. -/
theorem Call.eq_requested_of_inFlight {call : Call} {packet : Packet} {rest : List Packet}
    (hchannel : call.inFlight = packet :: rest) : call = .requested packet ∧ rest = [] := by
  cases call <;> cases hchannel
  exact ⟨rfl, rfl⟩

/-- A call that waits and is settled has its answer in the channel. -/
theorem Call.eq_answered_of_settled {call : Call} {request : Packet}
    (hcaller : call.caller = some request) (hsettled : call.Settled) :
    ∃ response, call = .answered request response := by
  cases call with
  | idle => cases hcaller
  | requested other => cases hsettled.1
  | taken other => cases hsettled.2
  | answered other response =>
      obtain rfl := Option.some.inj hcaller
      exact ⟨response, rfl⟩

/-- Where the request of a call that waits is, or where its answer is. -/
theorem Call.pending {call : Call} {request : Packet} (hcaller : call.caller = some request) :
    request ∈ call.inFlight ∨ call.served = some request ∨
      ∃ response, request.answerWith response ∈ call.replies := by
  cases call with
  | idle => cases hcaller
  | requested sent =>
      obtain rfl := Option.some.inj hcaller
      exact Or.inl (List.mem_singleton_self sent)
  | taken sent => exact Or.inr (Or.inl hcaller)
  | answered sent response =>
      obtain rfl := Option.some.inj hcaller
      exact Or.inr (Or.inr ⟨response, List.mem_singleton_self _⟩)

/-- A call that waits for an answer that is still to come. -/
theorem Call.replies_eq_nil {call : Call} {request : Packet}
    (hcaller : call.caller = some request)
    (hnone : ∀ packet ∈ call.replies, packet.origin ≠ .answer request.origin) :
    call.replies = [] := by
  cases call with
  | idle | requested | taken => rfl
  | answered sent response =>
      obtain rfl := Option.some.inj hcaller
      exact absurd rfl (hnone _ (List.mem_singleton_self _))

/-! ## Phases -/

/-- The vCPU is between `qemu_mutex_lock` and `qemu_mutex_unlock`. -/
def VcpuPhase.holdsLock : VcpuPhase → Bool
  | .sending _ | .receiving _ | .unlocking => true
  | .idle | .wantsLock _ => false

/-- The request whose answer the vCPU waits for. -/
def VcpuPhase.waiting : VcpuPhase → Option Packet
  | .receiving request => some request
  | .idle | .wantsLock _ | .sending _ | .unlocking => none

/-- The request that the vCPU is about to send. -/
def VcpuPhase.unsent : VcpuPhase → List Packet
  | .sending request => [request]
  | .idle | .wantsLock _ | .receiving _ | .unlocking => []

/-- `tcp_thread_func` is outside `qemu_cond_timedwait`. -/
def TcpPhase.holdsLock : TcpPhase → Bool
  | .polling | .serving _ => true
  | .condWait => false

/-- The message that `tcp_thread_func` has taken. -/
def TcpPhase.served : TcpPhase → Option Packet
  | .serving packet => some packet
  | .condWait | .polling => none

theorem TcpPhase.eq_serving_of_served {phase : TcpPhase} {packet : Packet}
    (hserved : phase.served = some packet) : phase = .serving packet := by
  cases phase <;> cases hserved
  rfl

theorem VcpuPhase.eq_receiving_of_waiting {phase : VcpuPhase} {request : Packet}
    (hwaiting : phase.waiting = some request) : phase = .receiving request := by
  cases phase <;> cases hwaiting
  rfl

section Invariant

variable {ι Guest : Type*}

/-- The phase of the vCPU that holds the mutex. -/
def currentPhase (owner : Option (Owner ι)) (vcpu : ι → VcpuPhase) : VcpuPhase :=
  match owner with
  | some (.vcpu i) => vcpu i
  | some .tcpThread => .idle
  | none => .idle

/-- The phase of the vCPU that holds the mutex. -/
def PlatformState.current (s : PlatformState ι Guest) : VcpuPhase :=
  currentPhase s.owner s.vcpu

/-- The call of a side waits in `recv` for the answer to the request. -/
def PlatformState.Waiting (s : PlatformState ι Guest) : Side → Packet → Prop
  | .qemu, request => ∃ i, s.vcpu i = .receiving request
  | .systemC, request => s.initiator = some request

/-- The messages of a side that the other has not read. -/
def PlatformState.channel (s : PlatformState ι Guest) : Side → List Packet
  | .qemu => s.toSystemC
  | .systemC => s.toQemu

/-- A call of the side waits and its answer is not in the channel. -/
def PlatformState.Unanswered (s : PlatformState ι Guest) (side : Side) : Prop :=
  ∃ request, s.Waiting side request ∧
    ∀ packet ∈ s.channel side.peer, packet.origin ≠ .answer request.origin

/-- A request is sent only while the peer waits for no answer that is still to
come. -/
def NoCrossing (s : PlatformState ι Guest) : Action ι → Prop
  | .vcpuSend _ => ¬s.Unanswered .systemC
  | .dmaCall _ _ => ¬s.Unanswered .qemu
  | _ => True

/-- The mutex is with the thread that is between locking and unlocking it. -/
structure LockHeld (owner : Option (Owner ι)) (vcpu : ι → VcpuPhase) (tcp : TcpPhase) :
    Prop where
  vcpu : ∀ i, (vcpu i).holdsLock = true ↔ owner = some (.vcpu i)
  tcp : tcp.holdsLock = true ↔ owner = some .tcpThread

/-- The processes and the channels are as the two calls make them. -/
structure Linked (s : PlatformState ι Guest) (mmio dma : Call) : Prop where
  toSystemC : s.toSystemC = dma.replies ++ mmio.inFlight
  toQemu : s.toQemu = mmio.replies ++ dma.inFlight
  dispatcher : s.dispatcher = mmio.served
  tcp : s.tcp.served = dma.served
  vcpu : s.current.waiting = mmio.caller
  initiator : s.initiator = dma.caller
  apart : mmio.Settled ∨ dma.Settled

/-- The call returned the response that a dispatcher gave to its request. -/
def AnsweredIn (log : List Served) (call : Packet × Packet) : Prop :=
  ∃ served ∈ log, served.packet = call.1 ∧ call.2 = call.1.answerWith served.response

/-- The logs are as the two calls make them. -/
structure Recorded (s : PlatformState ι Guest) (mmio dma : Call) : Prop where
  acquired : s.log.acquired = s.log.sentByQemu ++ s.current.unsent
  sentByQemu : s.log.sentByQemu =
    s.log.executed.map Served.packet ++ (mmio.served.toList ++ mmio.inFlight)
  sentBySystemC : s.log.sentBySystemC =
    s.log.servedByTcp.map Served.packet ++ (dma.served.toList ++ dma.inFlight)
  numbered : s.log.acquired.map Packet.origin =
    (List.range s.log.acquired.length).map (Origin.request .qemu)
  numberedDma : s.log.sentBySystemC.map Packet.origin =
    (List.range s.log.sentBySystemC.length).map (Origin.request .systemC)
  executed : ∀ request response, mmio = .answered request response →
    { packet := request, response := response } ∈ s.log.executed
  servedByTcp : ∀ request response, dma = .answered request response →
    { packet := request, response := response } ∈ s.log.servedByTcp
  returnedToQemu : ∀ call ∈ s.log.returnedToQemu, AnsweredIn s.log.executed call
  returnedToSystemC : ∀ call ∈ s.log.returnedToSystemC, AnsweredIn s.log.servedByTcp call

/-- The state reads as the two calls. -/
structure Coherent (s : PlatformState ι Guest) (mmio dma : Call) : Prop where
  lock : LockHeld s.owner s.vcpu s.tcp
  linked : Linked s mmio dma
  recorded : Recorded s mmio dma

theorem coherent_initial (thread : TcpThread Guest) (cpu : QemuCpu) :
    Coherent (PlatformState.initial thread cpu : PlatformState ι Guest) .idle .idle where
  lock := ⟨fun _ => by simp [PlatformState.initial, VcpuPhase.holdsLock],
    by simp [PlatformState.initial, TcpPhase.holdsLock]⟩
  linked := ⟨rfl, rfl, rfl, rfl, rfl, rfl, Or.inl ⟨rfl, rfl⟩⟩
  recorded := ⟨rfl, rfl, rfl, rfl, rfl, nofun, nofun, nofun, nofun⟩

/-! ## The mutex -/

section Mutex

variable {owner : Option (Owner ι)} {vcpu : ι → VcpuPhase} {tcp : TcpPhase} {i : ι}
  {phase : VcpuPhase}

/-- The phase of a vCPU inside its critical section is the current one. -/
theorem current_of_holdsLock (hlock : LockHeld owner vcpu tcp) (hphase : vcpu i = phase)
    (hholds : phase.holdsLock = true) :
    owner = some (.vcpu i) ∧ currentPhase owner vcpu = phase := by
  have howner : owner = some (.vcpu i) := (hlock.vcpu i).mp (hphase ▸ hholds)
  rw [howner]
  exact ⟨rfl, hphase⟩

/-- While the polling thread has the mutex no vCPU waits. -/
theorem current_of_tcp_holdsLock (hlock : LockHeld owner vcpu tcp)
    (hholds : tcp.holdsLock = true) : currentPhase owner vcpu = .idle := by
  rw [hlock.tcp.mp hholds]
  rfl

/-- The vCPU that waits is the current one. -/
theorem receiving_iff_current (hlock : LockHeld owner vcpu tcp) (request : Packet) :
    (∃ i, vcpu i = .receiving request) ↔ currentPhase owner vcpu = .receiving request := by
  constructor
  · rintro ⟨i, hphase⟩
    exact (current_of_holdsLock hlock hphase rfl).2
  · intro hcurrent
    unfold currentPhase at hcurrent
    split at hcurrent
    · rename_i i
      exact ⟨i, hcurrent⟩
    · cases hcurrent
    · cases hcurrent

theorem LockHeld.ne_owner (hlock : LockHeld owner vcpu tcp) (hphase : vcpu i = phase)
    (hholds : phase.holdsLock = false) : owner ≠ some (.vcpu i) := by
  intro howner
  have hheld := (hlock.vcpu i).mpr howner
  rw [hphase, hholds] at hheld
  cases hheld

variable [DecidableEq ι]

theorem current_update_owner (howner : owner = some (.vcpu i)) :
    currentPhase owner (Function.update vcpu i phase) = phase := by
  rw [howner]
  exact Function.update_self i phase vcpu

theorem current_update_other (howner : owner ≠ some (.vcpu i)) :
    currentPhase owner (Function.update vcpu i phase) = currentPhase owner vcpu := by
  unfold currentPhase
  split
  · rename_i j
    have hne : j ≠ i := fun h => howner (h ▸ rfl)
    exact Function.update_of_ne hne phase vcpu
  · rfl
  · rfl

omit [DecidableEq ι] in
theorem lockHeld_iff : LockHeld owner vcpu tcp ↔
    HeldBy owner (threadsInside VcpuPhase.holdsLock TcpPhase.holdsLock vcpu tcp) := by
  constructor
  · intro hlock who
    cases who with
    | vcpu i => exact hlock.vcpu i
    | tcpThread => exact hlock.tcp
  · intro hheld
    exact ⟨fun i => hheld (.vcpu i), hheld .tcpThread⟩

/-- A vCPU moves on without touching the mutex. -/
theorem LockHeld.update (hlock : LockHeld owner vcpu tcp) {before : VcpuPhase}
    (hphase : vcpu i = before) (hsame : phase.holdsLock = before.holdsLock) :
    LockHeld owner (Function.update vcpu i phase) tcp := by
  rw [lockHeld_iff] at hlock ⊢
  refine hlock.move (othersStay_vcpu vcpu tcp i phase) ?_
  rw [threadsInside_update, hsame, ← hphase]
  exact Iff.rfl

/-- A vCPU takes the free mutex. -/
theorem LockHeld.acquire (hlock : LockHeld none vcpu tcp) (hholds : phase.holdsLock = true) :
    LockHeld (some (.vcpu i)) (Function.update vcpu i phase) tcp := by
  rw [lockHeld_iff] at hlock ⊢
  exact hlock.acquire (othersStay_vcpu vcpu tcp i phase)
    ((threadsInside_update vcpu tcp i phase).mpr hholds)

/-- A vCPU gives the mutex up. -/
theorem LockHeld.release (hlock : LockHeld owner vcpu tcp) (howner : owner = some (.vcpu i))
    (hholds : phase.holdsLock = false) :
    LockHeld none (Function.update vcpu i phase) tcp := by
  rw [lockHeld_iff] at hlock ⊢
  refine hlock.release (othersStay_vcpu vcpu tcp i phase) ((hlock _).mpr howner) ?_
  rw [threadsInside_update, hholds]
  exact Bool.false_ne_true

omit [DecidableEq ι] in
/-- The polling thread takes the free mutex. -/
theorem LockHeld.tcpAcquire (hlock : LockHeld none vcpu tcp) {next : TcpPhase}
    (hholds : next.holdsLock = true) : LockHeld (some .tcpThread) vcpu next := by
  rw [lockHeld_iff] at hlock ⊢
  exact hlock.acquire (othersStay_tcp vcpu tcp next) hholds

omit [DecidableEq ι] in
/-- The polling thread gives the mutex up. -/
theorem LockHeld.tcpRelease (hlock : LockHeld owner vcpu tcp) (hheld : tcp.holdsLock = true) :
    LockHeld none vcpu .condWait := by
  rw [lockHeld_iff] at hlock ⊢
  exact hlock.release (othersStay_tcp vcpu tcp .condWait) hheld nofun

end Mutex

end Invariant

end Platform
end AislabVP
