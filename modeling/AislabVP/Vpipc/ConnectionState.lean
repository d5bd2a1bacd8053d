import AislabVP.Foundation.Runs
import AislabVP.Vpipc.Wait
import Mathlib.Data.Finset.Basic

/-!
# The server's idea of its connection

A server remembers one descriptor, `sock_fd`, and `client_is_connect` asks
whether it is `-1`.  Any number of clients may be connected.  This module runs
the server's `vp_wait` over arbitrary batches, keeps beside it the set of
accepted connections that `vp_wait` has not closed, and compares the two.

`sock_fd` follows every `accept` and no `close`.  So it names an open
connection until the event loop closes the connection accepted last and accepts
no other one in the same batch (`HangsUpCurrent`), and that is the only way in
which it stops doing so (`truthful_iff_never_hangsUpCurrent`).
-/

namespace AislabVP
namespace Vpipc

open Foundation

/-- The open descriptors after a system call. -/
def applySysCall (table : Finset Int) : SysCall → Finset Int
  | .opened fd => insert fd table
  | .epollAdd _ _ => table
  | .closed fd => table.erase fd

/-- The open descriptors after a list of system calls. -/
def applySysCalls (table : Finset Int) (calls : List SysCall) : Finset Int :=
  calls.foldl applySysCall table

theorem applySysCalls_append (table : Finset Int) (front back : List SysCall) :
    applySysCalls table (front ++ back) = applySysCalls (applySysCalls table front) back := by
  simp [applySysCalls]

/-- A server between two `vp_wait` calls, with the connections it has accepted
and not closed. -/
structure ServerState where
  vpm : VpIpcModule
  connections : Finset Int

/-- The server as `create_vp_module(MODULE_TYPE_SERVER)` leaves it. -/
def ServerState.created (epollFd serverFd : Int) : ServerState where
  vpm := (createVpModule .server epollFd serverFd).1
  connections := ∅

/-- One `vp_wait` call on a batch, when the process survives it.  `epoll_wait`
reports registered descriptors, which are not negative. -/
def ServerState.wait (state : ServerState) (batch : List EpollEvent) : Option ServerState :=
  let call := vpWait .qemu state.vpm (some batch)
  if (∀ event ∈ batch, 0 ≤ event.fd) ∧ call.exited = false then
    some { vpm := call.vpm, connections := applySysCalls state.connections call.calls }
  else none

/-- `client_is_connect` holds exactly when some accepted connection is open,
and then `sock_fd`, on which `mmio_bus_read` and `mmio_bus_write` transfer, is
one of the open ones. -/
def Truthful (state : ServerState) : Prop :=
  (clientIsConnect state.vpm = true ↔ state.connections.Nonempty) ∧
    (clientIsConnect state.vpm = true → state.vpm.sockFd ∈ state.connections)

/-- `recv` returned 0. -/
def RecvResult.isClosed : RecvResult → Bool
  | .closed => true
  | .error | .piece _ => false

/-- Some event of the batch reports the end of the connection that is the
current one at that point, and the batch accepts no connection after it.  The
current connection is the one accepted last. -/
def HangsUpCurrent (serverFd : Int) : Int → List EpollEvent → Prop
  | _, [] => False
  | current, event :: rest =>
      if event.fd = serverFd then HangsUpCurrent serverFd event.accept rest
      else
        (event.recv.isClosed = true ∧ event.fd = current ∧
          ∀ later ∈ rest, later.fd ≠ serverFd) ∨
        HangsUpCurrent serverFd current rest

theorem hangsUpCurrent_cons_accept {serverFd current : Int} {event : EpollEvent}
    (rest : List EpollEvent) (hserver : event.fd = serverFd) :
    HangsUpCurrent serverFd current (event :: rest) ↔
      HangsUpCurrent serverFd event.accept rest := by
  rw [HangsUpCurrent, if_pos hserver]

theorem hangsUpCurrent_cons_request {serverFd current : Int} {event : EpollEvent}
    (rest : List EpollEvent) (hserver : event.fd ≠ serverFd) :
    HangsUpCurrent serverFd current (event :: rest) ↔
      (event.recv.isClosed = true ∧ event.fd = current ∧
        ∀ later ∈ rest, later.fd ≠ serverFd) ∨
      HangsUpCurrent serverFd current rest := by
  rw [HangsUpCurrent, if_neg hserver]

/-- `sock_fd` is unset or names an open connection. -/
def Attached (vpm : VpIpcModule) (connections : Finset Int) : Prop :=
  vpm.sockFd = -1 ∨ vpm.sockFd ∈ connections

/-- Nothing is connected before the first `accept`. -/
structure ServerState.Sound (state : ServerState) : Prop where
  isServer : state.vpm.type = .server
  unset : state.vpm.sockFd = -1 → state.connections = ∅

theorem truthful_iff_attached {state : ServerState} (hsound : state.Sound) :
    Truthful state ↔ Attached state.vpm state.connections := by
  unfold Truthful Attached clientIsConnect
  by_cases hunset : state.vpm.sockFd = -1
  · simp [hunset, hsound.unset hunset]
  · simp only [ne_eq, hunset, not_false_eq_true, decide_true, true_iff, forall_const, false_or]
    exact ⟨fun h => h.2, fun h => ⟨⟨_, h⟩, h⟩⟩

theorem serverEvent_accept {vpm : VpIpcModule} {event : EpollEvent}
    (hserver : event.fd = vpm.serverFd) (hlive : (serverEvent vpm event).exited = false) :
    event.accept ≠ -1 ∧
      (serverEvent vpm event).vpm = { vpm with sockFd := event.accept } ∧
      (serverEvent vpm event).calls =
        [.opened event.accept, .epollAdd event.accept true] := by
  rw [serverEvent, if_pos hserver, acceptConnection] at hlive ⊢
  by_cases hadded : event.accept ≠ -1 ∧ event.epollCtl = true
  · rw [if_pos hadded]
    exact ⟨hadded.1, rfl, by simp [openedBy, hadded.1]⟩
  · rw [if_neg hadded] at hlive
    simp at hlive

theorem serverEvent_request {vpm : VpIpcModule} {event : EpollEvent}
    (hserver : event.fd ≠ vpm.serverFd) (hlive : (serverEvent vpm event).exited = false) :
    (serverEvent vpm event).vpm = vpm ∧
      (serverEvent vpm event).calls =
        if event.recv.isClosed = true then [.closed event.fd] else [] := by
  rw [serverEvent, if_neg hserver, receiveRequest] at hlive ⊢
  cases hrecv : event.recv with
  | error => simp [hrecv] at hlive
  | closed => simp [RecvResult.isClosed]
  | piece piece => simp [RecvResult.isClosed]

/-- The end of the current connection detaches the server. -/
theorem not_attached_of_hangup {vpm : VpIpcModule} {event : EpollEvent} (connections : Finset Int)
    (hreported : 0 ≤ event.fd)
    (hends : event.recv.isClosed = true ∧ event.fd = vpm.sockFd) :
    ¬Attached vpm (applySysCalls connections
      (if event.recv.isClosed = true then [.closed event.fd] else [])) := by
  have hsock : vpm.sockFd ≠ -1 := by
    intro hunset
    rw [hends.2, hunset] at hreported
    exact absurd hreported (by decide)
  simp [Attached, applySysCalls, applySysCall, hends.1, hends.2, hsock]

/-- Another connection, or data: nothing happens to the current one. -/
theorem attached_iff_of_not_hangup {vpm : VpIpcModule} {event : EpollEvent}
    (connections : Finset Int)
    (hends : ¬(event.recv.isClosed = true ∧ event.fd = vpm.sockFd)) :
    Attached vpm (applySysCalls connections
        (if event.recv.isClosed = true then [.closed event.fd] else [])) ↔
      Attached vpm connections := by
  unfold Attached
  by_cases hclosed : event.recv.isClosed = true
  · have hother : vpm.sockFd ≠ event.fd := fun h => hends ⟨hclosed, h.symm⟩
    simp [hclosed, applySysCalls, applySysCall, hother]
  · simp [hclosed, applySysCalls]

/-- A batch keeps the server attached if and only if it does not hang up on the
current connection; a batch that accepts attaches the server anew. -/
theorem serverLoop_attached_iff {vpm : VpIpcModule} {connections : Finset Int}
    {events : List EpollEvent} (hreported : ∀ event ∈ events, 0 ≤ event.fd)
    (hlive : (serverLoop vpm events).exited = false) :
    Attached (serverLoop vpm events).vpm
        (applySysCalls connections (serverLoop vpm events).calls) ↔
      (Attached vpm connections ∨ ∃ event ∈ events, event.fd = vpm.serverFd) ∧
        ¬HangsUpCurrent vpm.serverFd vpm.sockFd events := by
  induction events generalizing vpm connections with
  | nil => simp [applySysCalls, HangsUpCurrent]
  | cons event rest ih =>
      obtain ⟨hturn, hrest, heq⟩ := serverLoop_cons hlive
      have hreportedRest : ∀ event ∈ rest, 0 ≤ event.fd :=
        fun event hevent => hreported event (List.mem_cons_of_mem _ hevent)
      have hnext := @ih (serverEvent vpm event).vpm
        (applySysCalls connections (serverEvent vpm event).calls) hreportedRest hrest
      rw [heq]
      simp only [WaitResult.andThen, applySysCalls_append]
      rw [hnext]
      by_cases hserver : event.fd = vpm.serverFd
      · -- A connection request: `sock_fd` is the descriptor just opened.
        obtain ⟨-, hvpm, hcalls⟩ := serverEvent_accept hserver hturn
        have hattached : Attached (serverEvent vpm event).vpm
            (applySysCalls connections (serverEvent vpm event).calls) := by
          rw [hvpm, hcalls]
          exact Or.inr (by simp [applySysCalls, applySysCall])
        rw [hvpm] at hattached
        rw [hangsUpCurrent_cons_accept rest hserver, hvpm]
        simp [hattached, hserver]
      · obtain ⟨hvpm, hcalls⟩ := serverEvent_request hserver hturn
        rw [hangsUpCurrent_cons_request rest hserver, hvpm, hcalls]
        have hlater : (∃ later ∈ event :: rest, later.fd = vpm.serverFd) ↔
            ∃ later ∈ rest, later.fd = vpm.serverFd := by
          simp [hserver]
        rw [hlater]
        by_cases hends : event.recv.isClosed = true ∧ event.fd = vpm.sockFd
        · -- The current connection ends: attached again only through a later accept.
          have hdetached := not_attached_of_hangup connections
            (hreported event List.mem_cons_self) hends
          constructor
          · rintro ⟨hattached | ⟨later, hmem, haccepts⟩, hkept⟩
            · exact absurd hattached hdetached
            · refine ⟨Or.inr ⟨later, hmem, haccepts⟩, ?_⟩
              rintro (⟨-, -, hnone⟩ | hrestEnds)
              · exact hnone later hmem haccepts
              · exact hkept hrestEnds
          · rintro ⟨-, hkept⟩
            refine ⟨Or.inr ?_, fun hrestEnds => hkept (Or.inr hrestEnds)⟩
            by_contra hnone
            push Not at hnone
            exact hkept (Or.inl ⟨hends.1, hends.2, hnone⟩)
        · have hnot : ¬(event.recv.isClosed = true ∧ event.fd = vpm.sockFd ∧
              ∀ later ∈ rest, later.fd ≠ vpm.serverFd) :=
            fun h => hends ⟨h.1, h.2.1⟩
          rw [attached_iff_of_not_hangup connections hends]
          simp only [hnot, false_or]

theorem serverLoop_sock_ne_unset {vpm : VpIpcModule} {connections : Finset Int}
    {events : List EpollEvent} (hlive : (serverLoop vpm events).exited = false)
    (hunset : vpm.sockFd = -1 → connections = ∅)
    (hend : (serverLoop vpm events).vpm.sockFd = -1) :
    applySysCalls connections (serverLoop vpm events).calls = ∅ := by
  induction events generalizing vpm connections with
  | nil => exact hunset hend
  | cons event rest ih =>
      obtain ⟨hturn, hrest, heq⟩ := serverLoop_cons hlive
      rw [heq] at hend ⊢
      simp only [WaitResult.andThen, applySysCalls_append] at hend ⊢
      apply ih hrest _ hend
      intro hsock
      by_cases hserver : event.fd = vpm.serverFd
      · obtain ⟨haccept, hvpm, -⟩ := serverEvent_accept hserver hturn
        rw [hvpm] at hsock
        exact absurd hsock haccept
      · obtain ⟨hvpm, hcalls⟩ := serverEvent_request hserver hturn
        rw [hvpm] at hsock
        rw [hcalls, hunset hsock]
        split <;> simp [applySysCalls, applySysCall]

/-- What a surviving `vp_wait` call of a server is. -/
theorem wait_eq_some {state next : ServerState} {batch : List EpollEvent}
    (hserver : state.vpm.type = .server) (hwait : state.wait batch = some next) :
    (∀ event ∈ batch, 0 ≤ event.fd) ∧ (serverLoop state.vpm batch).exited = false ∧
      next.vpm = (serverLoop state.vpm batch).vpm ∧
      next.connections =
        applySysCalls state.connections (serverLoop state.vpm batch).calls := by
  unfold ServerState.wait at hwait
  simp only [vpWait_of_server .qemu hserver] at hwait
  split at hwait
  · rename_i henabled
    obtain rfl := Option.some.inj hwait
    exact ⟨henabled.1, henabled.2, rfl, rfl⟩
  · contradiction

theorem sound_wait (state : ServerState) (batch : List EpollEvent) (next : ServerState)
    (hsound : state.Sound) (hwait : state.wait batch = some next) : next.Sound := by
  obtain ⟨-, hlive, hvpm, hconnections⟩ := wait_eq_some hsound.isServer hwait
  constructor
  · rw [hvpm, (serverLoop_record state.vpm batch).1, hsound.isServer]
  · intro hend
    rw [hvpm] at hend
    rw [hconnections]
    exact serverLoop_sock_ne_unset hlive hsound.unset hend

theorem truthful_wait_iff (state : ServerState) (batch : List EpollEvent)
    (next : ServerState) (hsound : state.Sound) (htruthful : Truthful state)
    (hwait : state.wait batch = some next) :
    Truthful next ↔ ¬HangsUpCurrent state.vpm.serverFd state.vpm.sockFd batch := by
  obtain ⟨hreported, hlive, hvpm, hconnections⟩ := wait_eq_some hsound.isServer hwait
  have hattached := (truthful_iff_attached hsound).mp htruthful
  rw [truthful_iff_attached (sound_wait state batch next hsound hwait), hvpm, hconnections,
    serverLoop_attached_iff hreported hlive]
  simp [hattached]

theorem sound_created (epollFd serverFd : Int) :
    (ServerState.created epollFd serverFd).Sound :=
  ⟨rfl, fun _ => rfl⟩

theorem truthful_created (epollFd serverFd : Int) :
    Truthful (ServerState.created epollFd serverFd) := by
  simp [Truthful, ServerState.created, createVpModule, clientIsConnect]

/-- Over any run of a server, its connection state is truthful after every
`vp_wait` call if and only if no call hangs up on the connection accepted last
without accepting a new one. -/
theorem truthful_iff_never_hangsUpCurrent (epollFd serverFd : Int)
    (batches : List (List EpollEvent)) (final : ServerState)
    (hrun : runFrom ServerState.wait (ServerState.created epollFd serverFd) batches =
      some final) :
    HoldsAlong ServerState.wait Truthful (ServerState.created epollFd serverFd) batches ↔
      GuardedRun ServerState.wait
        (fun state batch => ¬HangsUpCurrent state.vpm.serverFd state.vpm.sockFd batch)
        (ServerState.created epollFd serverFd) batches :=
  holdsAlong_iff_guardedRun sound_wait truthful_wait_iff
    (sound_created epollFd serverFd) (truthful_created epollFd serverFd) hrun

/-- The server with listener `4` after clients were accepted. -/
def acceptedServer (sockFd : Int) (connections : Finset Int) : ServerState where
  vpm := { type := .server, epollFd := 3, sockFd := sockFd, serverFd := 4 }
  connections := connections

/-- Two clients connect, then the older one hangs up. -/
theorem truthful_older_client_hangs_up :
    HoldsAlong ServerState.wait Truthful (ServerState.created 3 4)
      [[EpollEvent.connection (acceptedServer 0 ∅).vpm 5],
        [EpollEvent.connection (acceptedServer 0 ∅).vpm 6],
        [EpollEvent.input 5 .closed]] := by
  refine (truthful_iff_never_hangsUpCurrent 3 4 _ (acceptedServer 6 {6}) rfl).mpr ?_
  refine ⟨by simp [HangsUpCurrent, EpollEvent.connection, acceptedServer,
    ServerState.created, createVpModule], fun first hfirst => ?_⟩
  obtain rfl : acceptedServer 5 {5} = first := Option.some.inj hfirst
  refine ⟨by simp [HangsUpCurrent, EpollEvent.connection, acceptedServer],
    fun second hsecond => ?_⟩
  obtain rfl : acceptedServer 6 {6, 5} = second := Option.some.inj hsecond
  exact ⟨by simp [HangsUpCurrent, EpollEvent.input, acceptedServer], fun _ _ => trivial⟩

/-- The only client connects and hangs up: no connection is open, yet
`client_is_connect` still holds and `sock_fd` is the closed descriptor. -/
theorem stale_sock_fd_after_disconnect :
    runFrom ServerState.wait (ServerState.created 3 4)
        [[EpollEvent.connection (acceptedServer 0 ∅).vpm 5],
          [EpollEvent.input 5 .closed]] =
      some (acceptedServer 5 ∅) ∧
    clientIsConnect (acceptedServer 5 ∅).vpm = true ∧
      ¬Truthful (acceptedServer 5 ∅) := by
  refine ⟨rfl, rfl, ?_⟩
  rintro ⟨hconnected, -⟩
  have hopen : (acceptedServer 5 ∅).connections.Nonempty := hconnected.mp rfl
  exact Finset.not_nonempty_empty hopen

end Vpipc
end AislabVP
