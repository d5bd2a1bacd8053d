import AislabVP.Foundation.Lock
import AislabVP.Foundation.Runs
import AislabVP.Platform.Mmio
import AislabVP.SystemC.SocketSlave

/-!
# Two processes on one socket

The parties of the platform as a transition system: any number of vCPU threads
in `mmio_bus_read` and `mmio_bus_write`, `tcp_thread_func`, `thread_process`,
and the initiators behind `QEMU_CPU::b_transport`.  Requests and responses of
both directions travel on one connection, in order and whole, and carry no
tag.

* In QEMU, `dev->mutex` is held by a vCPU from before `send` until after `recv`,
  and by `tcp_thread_func` everywhere but inside `qemu_cond_timedwait`.
* SystemC is one thread.  A `b_transport` call may come while `thread_process`
  serves a request, since the target waits; but an initiator that is blocked in
  `recv` stops the whole process.
* `vp_wait` may report the connection only while there is something to read, and
  takes one message.

A message is kept with its `Origin`, which the code does not see: the
request of which call it is, or the answer to which message.  The logs of
`History` are not seen by the code either.  An `SC_REPORT_ERROR` exception ends the
SystemC process and with it the connection, so a run of connected processes has
no such step.
-/

namespace AislabVP
namespace Platform

open Foundation Vpipc Qemu SystemC

/-- The two ends of the connection. -/
inductive Side where
  | qemu
  | systemC
  deriving DecidableEq, Repr

/-- The other end. -/
def Side.peer : Side → Side
  | .qemu => .systemC
  | .systemC => .qemu

/-- Where a message comes from: it is the request of a numbered `vp_b_transfer`
call, or what a dispatcher sent after it had taken another message. -/
inductive Origin where
  | request (side : Side) (id : Nat)
  | answer (taken : Origin)
  deriving DecidableEq, Repr

/-- A message with its origin. -/
structure Packet where
  origin : Origin
  data : VpTransferData
  deriving DecidableEq, Repr

/-- Whether a `vp_b_transfer` call sent the message. -/
def Packet.isRequest (packet : Packet) : Bool :=
  match packet.origin with
  | .request _ _ => true
  | .answer _ => false

/-- A dispatcher's response to a message it took. -/
def Packet.answerWith (taken : Packet) (data : VpTransferData) : Packet where
  origin := .answer taken.origin
  data := data

/-- A message that a dispatcher took and the response it sent. -/
structure Served where
  packet : Packet
  response : VpTransferData
  deriving DecidableEq, Repr

/-- A vCPU thread in a region callback. -/
inductive VcpuPhase where
  | idle
  | wantsLock (request : VpTransferData)
  | sending (request : Packet)
  | receiving (request : Packet)
  | unlocking
  deriving DecidableEq, Repr

/-- `tcp_thread_func`: inside `qemu_cond_timedwait`, before `vp_wait`, or in the
loop body with the message it took. -/
inductive TcpPhase where
  | condWait
  | polling
  | serving (packet : Packet)
  deriving DecidableEq, Repr

/-- Who holds `dev->mutex`. -/
inductive Owner (ι : Type*) where
  | vcpu (index : ι)
  | tcpThread
  deriving DecidableEq, Repr

section Threads

variable {ι Vcpu Tcp : Type*} {vcpuHolds : Vcpu → Bool} {tcpHolds : Tcp → Bool}

/-- The threads of QEMU that are between locking and unlocking the mutex. -/
def threadsInside (vcpuHolds : Vcpu → Bool) (tcpHolds : Tcp → Bool) (vcpu : ι → Vcpu)
    (tcp : Tcp) : Owner ι → Prop
  | .vcpu i => vcpuHolds (vcpu i) = true
  | .tcpThread => tcpHolds tcp = true

theorem othersStay_vcpu [DecidableEq ι] (vcpu : ι → Vcpu) (tcp : Tcp) (i : ι) (point : Vcpu) :
    OthersStay (.vcpu i) (threadsInside vcpuHolds tcpHolds vcpu tcp)
      (threadsInside vcpuHolds tcpHolds (Function.update vcpu i point) tcp) := by
  intro other hother
  cases other with
  | vcpu j =>
      have hne : j ≠ i := fun hsame => hother (congrArg Owner.vcpu hsame)
      show vcpuHolds (Function.update vcpu i point j) = true ↔ vcpuHolds (vcpu j) = true
      rw [Function.update_of_ne hne]
  | tcpThread => exact Iff.rfl

theorem othersStay_tcp (vcpu : ι → Vcpu) (tcp next : Tcp) :
    OthersStay .tcpThread (threadsInside vcpuHolds tcpHolds vcpu tcp)
      (threadsInside vcpuHolds tcpHolds vcpu next) := by
  intro other hother
  cases other with
  | vcpu j => exact Iff.rfl
  | tcpThread => exact absurd rfl hother

theorem threadsInside_update [DecidableEq ι] (vcpu : ι → Vcpu) (tcp : Tcp) (i : ι)
    (point : Vcpu) :
    threadsInside vcpuHolds tcpHolds (Function.update vcpu i point) tcp (.vcpu i) ↔
      vcpuHolds point = true := by
  show vcpuHolds (Function.update vcpu i point i) = true ↔ vcpuHolds point = true
  rw [Function.update_self]

end Threads

/-- What has happened so far: the calls in the order in which they got the mutex,
the requests sent by either side, the messages served by either dispatcher, and
what the `vp_b_transfer` calls of either side returned for their requests. -/
structure History where
  acquired : List Packet
  sentByQemu : List Packet
  sentBySystemC : List Packet
  executed : List Served
  servedByTcp : List Served
  returnedToQemu : List (Packet × Packet)
  returnedToSystemC : List (Packet × Packet)

/-- Nothing has happened. -/
def History.empty : History where
  acquired := []
  sentByQemu := []
  sentBySystemC := []
  executed := []
  servedByTcp := []
  returnedToQemu := []
  returnedToSystemC := []

/-- The two processes and the connection between them.  `dispatcher` is the
message that `thread_process` serves, `initiator` the request of the
`b_transport` call that is blocked in `recv`. -/
structure PlatformState (ι Guest : Type*) where
  owner : Option (Owner ι)
  vcpu : ι → VcpuPhase
  tcp : TcpPhase
  thread : TcpThread Guest
  toSystemC : List Packet
  toQemu : List Packet
  dispatcher : Option Packet
  initiator : Option Packet
  cpu : QemuCpu
  log : History

/-- What does not change: guest memory and the records of the two modules, which
stay connected. -/
structure Wiring (Guest : Type*) where
  mem : PhysicalMemory Guest
  server : VpIpcModule
  client : VpIpcModule
  isServer : server.type = .server
  connected : clientIsConnect server = true
  accepted : server.sockFd ≠ server.serverFd
  isClient : client.type = .client

section Transitions

variable {ι Guest : Type*}

/-- The entry of `vpt` that QEMU's `vp_wait` fills with a message. -/
def Wiring.qemuVpt (wiring : Wiring Guest) (data : VpTransferData) : VpTransfer where
  sockFd := wiring.server.sockFd
  data := data

/-- The entry of `vpt` that SystemC's `vp_wait` fills with a message. -/
def Wiring.systemCVpt (wiring : Wiring Guest) (data : VpTransferData) : VpTransfer where
  sockFd := wiring.client.sockFd
  data := data

theorem vpWait_qemuVpt (wiring : Wiring Guest) (data : VpTransferData) :
    (vpWait .qemu wiring.server
      (some [EpollEvent.input wiring.server.sockFd (.piece (Piece.whole data))])).vpt =
        [wiring.qemuVpt data] := by
  rw [vpWait_server_whole .qemu wiring.isServer wiring.accepted]
  rfl

theorem vpWait_systemCVpt (wiring : Wiring Guest) (data : VpTransferData) :
    (vpWait .systemC wiring.client
      (some [EpollEvent.input wiring.client.sockFd (.piece (Piece.whole data))])).vpt =
        [wiring.systemCVpt data] := by
  rw [vpWait_client_whole .systemC wiring.isClient]
  rfl

/-- The request that a region callback sends to a connected client. -/
def MmioCall.request : MmioCall → VpTransferData
  | .read offset size => readRequest offset size
  | .write offset value size => writeRequest offset value size

/-- Before the first call. -/
def PlatformState.initial (thread : TcpThread Guest) (cpu : QemuCpu) : PlatformState ι Guest where
  owner := none
  vcpu := fun _ => .idle
  tcp := .condWait
  thread := thread
  toSystemC := []
  toQemu := []
  dispatcher := none
  initiator := none
  cpu := cpu
  log := History.empty

/-- What a party can do next.  `seen` tells whether a poll finds a message. -/
inductive Action (ι : Type*) where
  | vcpuCall (index : ι) (call : MmioCall)
  | vcpuLock (index : ι)
  | vcpuSend (index : ι)
  | vcpuRecv (index : ι)
  | vcpuUnlock (index : ι)
  | tcpLock
  | tcpPoll (seen : Bool)
  | tcpServe
  | scPoll (seen : Bool)
  | scServe
  | dmaCall (stack : BitVec 64) (trans : TlmPayload)
  | dmaRecv

variable [DecidableEq ι] (wiring : Wiring Guest)

/-- One step of one party; `none` when the party is not at that point or is
blocked. -/
def step (s : PlatformState ι Guest) : Action ι → Option (PlatformState ι Guest)
  -- `mmio_bus_read` and `mmio_bus_write`: fill in `vpt_send`, `qemu_mutex_lock`, the two
  -- halves of `vp_b_transfer`, `qemu_mutex_unlock`.
  | .vcpuCall i call =>
      match s.vcpu i with
      | .idle => some { s with vcpu := Function.update s.vcpu i (.wantsLock call.request) }
      | _ => none
  | .vcpuLock i =>
      match s.vcpu i, s.owner with
      | .wantsLock data, none =>
          let request : Packet :=
            { origin := .request .qemu s.log.acquired.length, data := data }
          some { s with
            owner := some (.vcpu i)
            vcpu := Function.update s.vcpu i (.sending request)
            log := { s.log with acquired := s.log.acquired ++ [request] } }
      | _, _ => none
  | .vcpuSend i =>
      match s.vcpu i with
      | .sending request =>
          some { s with
            vcpu := Function.update s.vcpu i (.receiving request)
            toSystemC := s.toSystemC ++ [request]
            log := { s.log with sentByQemu := s.log.sentByQemu ++ [request] } }
      | _ => none
  | .vcpuRecv i =>
      match s.vcpu i, s.toQemu with
      | .receiving request, packet :: rest =>
          some { s with
            vcpu := Function.update s.vcpu i .unlocking
            toQemu := rest
            log := { s.log with
              returnedToQemu := s.log.returnedToQemu ++ [(request, packet)] } }
      | _, _ => none
  | .vcpuUnlock i =>
      match s.vcpu i with
      | .unlocking =>
          some { s with owner := none, vcpu := Function.update s.vcpu i .idle }
      | _ => none
  -- `tcp_thread_func`: back from `qemu_cond_timedwait`, `vp_wait`, the loop body.
  | .tcpLock =>
      match s.tcp, s.owner with
      | .condWait, none => some { s with owner := some .tcpThread, tcp := .polling }
      | _, _ => none
  | .tcpPoll false =>
      match s.tcp with
      | .polling => some { s with owner := none, tcp := .condWait }
      | _ => none
  | .tcpPoll true =>
      match s.tcp, s.toQemu with
      | .polling, packet :: rest => some { s with tcp := .serving packet, toQemu := rest }
      | _, _ => none
  | .tcpServe =>
      match s.tcp with
      | .serving packet =>
          match s.thread.serve wiring.mem (wiring.qemuVpt packet.data) with
          | none => none
          | some thread =>
              -- The loop ends and the next turn gives the mutex up.
              some { s with
                owner := none
                tcp := .condWait
                thread := thread
                toSystemC := s.toSystemC ++ [packet.answerWith thread.vptResp.data]
                log := { s.log with
                  servedByTcp := s.log.servedByTcp ++
                    [{ packet := packet, response := thread.vptResp.data }] } }
      | _ => none
  -- `thread_process`: `vp_wait`, the loop body.
  | .scPoll false =>
      match s.initiator, s.dispatcher with
      | none, none => some s
      | _, _ => none
  | .scPoll true =>
      match s.initiator, s.dispatcher, s.toSystemC with
      | none, none, packet :: rest =>
          some { s with dispatcher := some packet, toSystemC := rest }
      | _, _, _ => none
  | .scServe =>
      match s.initiator, s.dispatcher with
      | none, some packet =>
          match s.cpu.dispatch (wiring.systemCVpt packet.data) with
          -- The exception ends the process.
          | (_, .error _) => none
          | (cpu, .ok resp) =>
              some { s with
                dispatcher := none
                cpu := cpu
                toQemu := s.toQemu ++ [packet.answerWith resp.data]
                log := { s.log with
                  executed := s.log.executed ++
                    [{ packet := packet, response := resp.data }] } }
      | _, _ => none
  -- `QEMU_CPU::b_transport`: the two halves of its `vp_b_transfer`.
  | .dmaCall stack transaction =>
      match s.initiator, slaveRequest stack transaction with
      | none, some data =>
          let request : Packet :=
            { origin := .request .systemC s.log.sentBySystemC.length, data := data }
          some { s with
            initiator := some request
            toQemu := s.toQemu ++ [request]
            log := { s.log with sentBySystemC := s.log.sentBySystemC ++ [request] } }
      | _, _ => none
  | .dmaRecv =>
      match s.initiator, s.toSystemC with
      | some request, packet :: rest =>
          some { s with
            initiator := none
            toSystemC := rest
            log := { s.log with
              returnedToSystemC := s.log.returnedToSystemC ++ [(request, packet)] } }
      | _, _ => none

/-! ## What a step does -/

/-- The effect of a step, with what has to hold before it. -/
inductive StepEffect (s : PlatformState ι Guest) :
    Action ι → PlatformState ι Guest → Prop
  | vcpuCall (i : ι) (call : MmioCall) (hphase : s.vcpu i = .idle) :
      StepEffect s (.vcpuCall i call)
        { s with vcpu := Function.update s.vcpu i (.wantsLock call.request) }
  | vcpuLock (i : ι) (data : VpTransferData) (request : Packet)
      (hphase : s.vcpu i = .wantsLock data) (hfree : s.owner = none)
      (hrequest : request =
        { origin := .request .qemu s.log.acquired.length, data := data }) :
      StepEffect s (.vcpuLock i)
        { s with
          owner := some (.vcpu i)
          vcpu := Function.update s.vcpu i (.sending request)
          log := { s.log with acquired := s.log.acquired ++ [request] } }
  | vcpuSend (i : ι) (request : Packet) (hphase : s.vcpu i = .sending request) :
      StepEffect s (.vcpuSend i)
        { s with
          vcpu := Function.update s.vcpu i (.receiving request)
          toSystemC := s.toSystemC ++ [request]
          log := { s.log with sentByQemu := s.log.sentByQemu ++ [request] } }
  | vcpuRecv (i : ι) (request packet : Packet) (rest : List Packet)
      (hphase : s.vcpu i = .receiving request) (hchannel : s.toQemu = packet :: rest) :
      StepEffect s (.vcpuRecv i)
        { s with
          vcpu := Function.update s.vcpu i .unlocking
          toQemu := rest
          log := { s.log with
            returnedToQemu := s.log.returnedToQemu ++ [(request, packet)] } }
  | vcpuUnlock (i : ι) (hphase : s.vcpu i = .unlocking) :
      StepEffect s (.vcpuUnlock i)
        { s with owner := none, vcpu := Function.update s.vcpu i .idle }
  | tcpLock (hphase : s.tcp = .condWait) (hfree : s.owner = none) :
      StepEffect s .tcpLock { s with owner := some .tcpThread, tcp := .polling }
  | tcpIdle (hphase : s.tcp = .polling) :
      StepEffect s (.tcpPoll false) { s with owner := none, tcp := .condWait }
  | tcpTake (packet : Packet) (rest : List Packet) (hphase : s.tcp = .polling)
      (hchannel : s.toQemu = packet :: rest) :
      StepEffect s (.tcpPoll true) { s with tcp := .serving packet, toQemu := rest }
  | tcpServe (packet : Packet) (thread : TcpThread Guest) (hphase : s.tcp = .serving packet)
      (hserve : s.thread.serve wiring.mem (wiring.qemuVpt packet.data) = some thread) :
      StepEffect s .tcpServe
        { s with
          owner := none
          tcp := .condWait
          thread := thread
          toSystemC := s.toSystemC ++ [packet.answerWith thread.vptResp.data]
          log := { s.log with
            servedByTcp := s.log.servedByTcp ++
              [{ packet := packet, response := thread.vptResp.data }] } }
  | scIdle (hfree : s.initiator = none) (hphase : s.dispatcher = none) :
      StepEffect s (.scPoll false) s
  | scTake (packet : Packet) (rest : List Packet) (hfree : s.initiator = none)
      (hphase : s.dispatcher = none) (hchannel : s.toSystemC = packet :: rest) :
      StepEffect s (.scPoll true) { s with dispatcher := some packet, toSystemC := rest }
  | scServe (packet : Packet) (cpu : QemuCpu) (resp : VpTransfer) (hfree : s.initiator = none)
      (hphase : s.dispatcher = some packet)
      (hserve : s.cpu.dispatch (wiring.systemCVpt packet.data) = (cpu, .ok resp)) :
      StepEffect s .scServe
        { s with
          dispatcher := none
          cpu := cpu
          toQemu := s.toQemu ++ [packet.answerWith resp.data]
          log := { s.log with
            executed := s.log.executed ++ [{ packet := packet, response := resp.data }] } }
  | dmaCall (stack : BitVec 64) (trans : TlmPayload) (data : VpTransferData)
      (request : Packet) (hfree : s.initiator = none)
      (hsend : slaveRequest stack trans = some data)
      (hrequest : request =
        { origin := .request .systemC s.log.sentBySystemC.length, data := data }) :
      StepEffect s (.dmaCall stack trans)
        { s with
          initiator := some request
          toQemu := s.toQemu ++ [request]
          log := { s.log with sentBySystemC := s.log.sentBySystemC ++ [request] } }
  | dmaRecv (request packet : Packet) (rest : List Packet)
      (hphase : s.initiator = some request) (hchannel : s.toSystemC = packet :: rest) :
      StepEffect s .dmaRecv
        { s with
          initiator := none
          toSystemC := rest
          log := { s.log with
            returnedToSystemC := s.log.returnedToSystemC ++ [(request, packet)] } }

/-- Every step has one of these effects. -/
theorem step_effect {s next : PlatformState ι Guest} {action : Action ι}
    (hstep : step wiring s action = some next) : StepEffect wiring s action next := by
  cases action with
  | vcpuCall i call =>
      rw [step] at hstep
      split at hstep
      · rename_i hphase
        obtain rfl := Option.some.inj hstep
        exact .vcpuCall i call hphase
      · contradiction
  | vcpuLock i =>
      rw [step] at hstep
      split at hstep
      · rename_i data hphase hfree
        obtain rfl := Option.some.inj hstep
        exact .vcpuLock i data _ hphase hfree rfl
      · contradiction
  | vcpuSend i =>
      rw [step] at hstep
      split at hstep
      · rename_i request hphase
        obtain rfl := Option.some.inj hstep
        exact .vcpuSend i request hphase
      · contradiction
  | vcpuRecv i =>
      rw [step] at hstep
      split at hstep
      · rename_i request packet rest hphase hchannel
        obtain rfl := Option.some.inj hstep
        exact .vcpuRecv i request packet rest hphase hchannel
      · contradiction
  | vcpuUnlock i =>
      rw [step] at hstep
      split at hstep
      · rename_i hphase
        obtain rfl := Option.some.inj hstep
        exact .vcpuUnlock i hphase
      · contradiction
  | tcpLock =>
      rw [step] at hstep
      split at hstep
      · rename_i hphase hfree
        obtain rfl := Option.some.inj hstep
        exact .tcpLock hphase hfree
      · contradiction
  | tcpPoll seen =>
      cases seen with
      | false =>
          rw [step] at hstep
          split at hstep
          · rename_i hphase
            obtain rfl := Option.some.inj hstep
            exact .tcpIdle hphase
          · contradiction
      | true =>
          rw [step] at hstep
          split at hstep
          · rename_i packet rest hphase hchannel
            obtain rfl := Option.some.inj hstep
            exact .tcpTake packet rest hphase hchannel
          · contradiction
  | tcpServe =>
      rw [step] at hstep
      split at hstep
      · rename_i packet hphase
        split at hstep
        · contradiction
        · rename_i thread hserve
          obtain rfl := Option.some.inj hstep
          exact .tcpServe packet thread hphase hserve
      · contradiction
  | scPoll seen =>
      cases seen with
      | false =>
          rw [step] at hstep
          split at hstep
          · rename_i hfree hphase
            obtain rfl := Option.some.inj hstep
            exact .scIdle hfree hphase
          · contradiction
      | true =>
          rw [step] at hstep
          split at hstep
          · rename_i packet rest hfree hphase hchannel
            obtain rfl := Option.some.inj hstep
            exact .scTake packet rest hfree hphase hchannel
          · contradiction
  | scServe =>
      rw [step] at hstep
      split at hstep
      · rename_i packet hfree hphase
        split at hstep
        · contradiction
        · rename_i cpu resp hserve
          obtain rfl := Option.some.inj hstep
          exact .scServe packet cpu resp hfree hphase hserve
      · contradiction
  | dmaCall stack trans =>
      rw [step] at hstep
      split at hstep
      · rename_i data hfree hsend
        obtain rfl := Option.some.inj hstep
        exact .dmaCall stack trans data _ hfree hsend rfl
      · contradiction
  | dmaRecv =>
      rw [step] at hstep
      split at hstep
      · rename_i request packet rest hphase hchannel
        obtain rfl := Option.some.inj hstep
        exact .dmaRecv request packet rest hphase hchannel
      · contradiction

end Transitions

end Platform
end AislabVP
