import AislabVP.Vpipc.Readiness

/-!
# The caller's array

`vp_wait` stores the transfers of one call in an array of its caller, at the index
`trans_count`, which it never compares with anything.  The three callers pass arrays
of length 3; `epoll_wait` may report `MAX_EVENTS` descriptors.

`storeIndices` follows `trans_count` through the loop.  A server stores exactly the
whole requests of the batch (`vpt_serverLoop`), so it stays inside the array if and
only if there are at most three of them (`vpWait_stores_inside_iff`).  A client handles
one event and always stays inside.
-/

namespace AislabVP
namespace Vpipc

open Foundation

/-- The length of `vpt` in `tcp_thread_func`, in `mmio_bus_realize` and in `QEMU_CPU`. -/
def callerArrayLength : Nat := 3

/-! ## The whole requests of a batch -/

/-- The event after which the process has ended: `accept` or `epoll_ctl` fails, or
`recv` does. -/
def EpollEvent.endsProcess (serverFd : Int) (event : EpollEvent) : Bool :=
  if event.fd = serverFd then !(decide (event.accept ≠ -1) && event.epollCtl)
  else
    match event.recv with
    | .error => true
    | .closed | .piece _ => false

/-- The whole message that `recv` reads from a client for this event. -/
def EpollEvent.wholeRequest (serverFd : Int) (event : EpollEvent) : Option VpTransfer :=
  if event.fd = serverFd then none
  else
    match event.recv with
    | .piece piece =>
        if piece.bytes.length = sizeofTransferData then
          some { sockFd := event.fd, data := VpTransferData.ofImage piece.bytes }
        else none
    | .error | .closed => none

/-- The whole requests that the clients' descriptors yield in a batch, in event order,
while the process lives. -/
def wholeRequests (serverFd : Int) (events : List EpollEvent) : List VpTransfer :=
  (events.takeWhile fun event => !event.endsProcess serverFd).filterMap
    (EpollEvent.wholeRequest serverFd)

theorem exited_serverEvent (vpm : VpIpcModule) (event : EpollEvent) :
    (serverEvent vpm event).exited = event.endsProcess vpm.serverFd := by
  unfold serverEvent EpollEvent.endsProcess
  by_cases hserver : event.fd = vpm.serverFd
  · rw [if_pos hserver, if_pos hserver, acceptConnection]
    by_cases hadded : event.accept ≠ -1 ∧ event.epollCtl = true
    · rw [if_pos hadded]
      simp [hadded.1, hadded.2]
    · rw [if_neg hadded]
      by_cases haccept : event.accept = -1
      · simp [haccept]
      · have hctl : event.epollCtl = false :=
          Bool.eq_false_of_not_eq_true fun h => hadded ⟨haccept, h⟩
        simp [hctl]
  · rw [if_neg hserver, if_neg hserver, receiveRequest]
    cases event.recv <;> rfl

/-- One turn stores the whole request of its event, if there is one. -/
theorem vpt_serverEvent (vpm : VpIpcModule) (event : EpollEvent) :
    (serverEvent vpm event).vpt = (event.wholeRequest vpm.serverFd).toList := by
  unfold serverEvent EpollEvent.wholeRequest
  by_cases hserver : event.fd = vpm.serverFd
  · rw [if_pos hserver, if_pos hserver, acceptConnection]
    split <;> rfl
  · rw [if_neg hserver, if_neg hserver, receiveRequest]
    cases event.recv with
    | error => rfl
    | closed => rfl
    | piece piece =>
        by_cases hsize : piece.bytes.length = sizeofTransferData
        · simp [storeTransfer, hsize]
        · simp [storeTransfer, hsize]

theorem wholeRequests_cons_ends {serverFd : Int} {event : EpollEvent} (rest : List EpollEvent)
    (hends : event.endsProcess serverFd = true) : wholeRequests serverFd (event :: rest) = [] := by
  rw [wholeRequests, List.takeWhile_cons_of_neg (by simp [hends]), List.filterMap_nil]

theorem wholeRequests_cons_lives {serverFd : Int} {event : EpollEvent} (rest : List EpollEvent)
    (hends : event.endsProcess serverFd = false) :
    wholeRequests serverFd (event :: rest) =
      (event.wholeRequest serverFd).toList ++ wholeRequests serverFd rest := by
  rw [wholeRequests, List.takeWhile_cons_of_pos (by simp [hends]), List.filterMap_cons]
  cases event.wholeRequest serverFd <;> rfl

/-- No whole request comes from an event that ends the process. -/
theorem wholeRequest_of_ends {serverFd : Int} {event : EpollEvent}
    (hends : event.endsProcess serverFd = true) : event.wholeRequest serverFd = none := by
  unfold EpollEvent.endsProcess at hends
  unfold EpollEvent.wholeRequest
  split
  · rfl
  · rename_i hclient
    rw [if_neg hclient] at hends
    cases hrecv : event.recv with
    | error => rfl
    | closed => rfl
    | piece piece => simp [hrecv] at hends

/-- What the server's loop stores in `vpt`. -/
theorem vpt_serverLoop (vpm : VpIpcModule) (events : List EpollEvent) :
    (serverLoop vpm events).vpt = wholeRequests vpm.serverFd events := by
  induction events generalizing vpm with
  | nil => rfl
  | cons event rest ih =>
      have hserver := (serverEvent_record vpm event).2.1
      rw [serverLoop]
      cases hends : event.endsProcess vpm.serverFd with
      | true =>
          rw [if_pos ((exited_serverEvent vpm event).trans hends), vpt_serverEvent,
            wholeRequest_of_ends hends, wholeRequests_cons_ends rest hends]
          rfl
      | false =>
          have hlive : ¬(serverEvent vpm event).exited = true := by
            rw [exited_serverEvent, hends]
            exact Bool.false_ne_true
          rw [if_neg hlive, wholeRequests_cons_lives rest hends]
          show (serverEvent vpm event).vpt ++ _ = _
          rw [vpt_serverEvent, ih, hserver]

/-! ## The index -/

/-- The values of `trans_count` at which one turn stores a transfer, when it is `count`
before the turn. -/
def WaitResult.storedFrom (turn : WaitResult) (count : Nat) : List Nat :=
  List.range' count turn.vpt.length

/-- The values of `trans_count` at which the server's loop stores its transfers. -/
def serverStoreIndices (vpm : VpIpcModule) : Nat → List EpollEvent → List Nat
  | _, [] => []
  | count, event :: rest =>
      let turn := serverEvent vpm event
      if turn.exited then turn.storedFrom count
      else
        turn.storedFrom count ++
          serverStoreIndices turn.vpm (count + turn.vpt.length) rest

/-- The values of `trans_count` at which `vp_wait` stores a transfer. -/
def storeIndices (copy : LibraryCopy) (vpm : VpIpcModule) (events : List EpollEvent) : List Nat :=
  match vpm.type with
  | .server => serverStoreIndices vpm 0 events
  | .client =>
      match events with
      | [] => []
      | event :: _ => (clientEvent copy vpm event).storedFrom 0

/-- `vp_wait` writes to no element behind its caller's array. -/
def StoresInside (copy : LibraryCopy) (vpm : VpIpcModule) (events : List EpollEvent) : Prop :=
  ∀ index ∈ storeIndices copy vpm events, index < callerArrayLength

theorem serverStoreIndices_eq (vpm : VpIpcModule) (count : Nat) (events : List EpollEvent) :
    serverStoreIndices vpm count events =
      List.range' count (serverLoop vpm events).vpt.length := by
  induction events generalizing vpm count with
  | nil => rfl
  | cons event rest ih =>
      rw [serverStoreIndices, serverLoop]
      split
      · rfl
      · show List.range' count _ ++ _ = List.range' count ((serverEvent vpm event).vpt ++ _).length
        rw [ih, List.length_append, ← List.range'_append_1]

/-- A client stores one transfer at most. -/
theorem length_vpt_clientEvent (copy : LibraryCopy) (vpm : VpIpcModule) (event : EpollEvent) :
    (clientEvent copy vpm event).vpt.length ≤ 1 := by
  unfold clientEvent
  split
  · exact Nat.zero_le 1
  · split
    · exact Nat.zero_le 1
    · split <;> exact Nat.zero_le 1
    · unfold storeTransfer
      split
      · exact Nat.zero_le 1
      · exact le_refl 1

/-- `trans_count` stays below the length of the caller's array if and only if the module
is a client or the batch holds at most three whole requests. -/
theorem vpWait_stores_inside_iff (copy : LibraryCopy) (vpm : VpIpcModule)
    (events : List EpollEvent) :
    StoresInside copy vpm events ↔
      vpm.type = .client ∨ (wholeRequests vpm.serverFd events).length ≤ callerArrayLength := by
  unfold StoresInside storeIndices
  cases htype : vpm.type with
  | server =>
      simp only [serverStoreIndices_eq, vpt_serverLoop, List.mem_range'_1, Nat.zero_add,
        Nat.zero_le, true_and, reduceCtorEq, false_or]
      constructor
      · -- The last index that is used is one below the number of requests.
        intro hinside
        by_contra hmany
        have hlast := hinside callerArrayLength (by omega)
        omega
      · intro hfew index hindex
        omega
  | client =>
      simp only [true_or, iff_true]
      cases events with
      | nil => exact nofun
      | cons event rest =>
          intro index hindex
          have hone := length_vpt_clientEvent copy vpm event
          have hbelow : 0 ≤ index ∧ index < 0 + (clientEvent copy vpm event).vpt.length :=
            List.mem_range'_1.mp hindex
          unfold callerArrayLength
          omega

/-- Four clients are connected and send one request each before a poll. -/
def fourClients : List NetAction :=
  [ .connect, .wait [(4, 5)], .connect, .wait [(4, 6)], .connect, .wait [(4, 7)],
    .connect, .wait [(4, 8)], .send 5 exampleRequest, .send 6 exampleRequest,
    .send 7 exampleRequest, .send 8 exampleRequest ]

/-- The batch in which `epoll_wait` reports the four of them. -/
def fourRequests : List EpollEvent :=
  [5, 6, 7, 8].map fun fd => EpollEvent.input fd (.piece (Piece.whole exampleRequest))

/-- The kernel may report the four clients at once, within `MAX_EVENTS`, and the fourth
request is stored behind the array of three. -/
theorem fourth_request_is_stored_outside :
    ∃ kernel, runFrom Kernel.step (Kernel.created 3 4) fourClients = some kernel ∧
      fourRequests.length ≤ maxEvents ∧
      (∀ event ∈ fourRequests, kernel.reportable event.fd = true) ∧
      fourRequests.map (fun event => kernel.outcome event.fd (-1)) = fourRequests.map some ∧
      storeIndices .qemu kernel.vpm fourRequests = [0, 1, 2, 3] ∧
      ¬StoresInside .qemu kernel.vpm fourRequests := by
  refine ⟨_, rfl, by decide, ?_, rfl, rfl, fun hinside => ?_⟩
  · unfold fourRequests
    rw [List.forall_mem_map]
    decide
  · have hfourth := hinside 3 (by decide)
    exact absurd hfourth (by decide)

end Vpipc
end AislabVP
