import AislabVP.Vpipc.Message

/-!
# The connection library

`vpipc.c` and its SystemC copy `vpipc.cpp` hold a module record, an event loop
`vp_wait` and a few one-line helpers.  The functions below follow the source
branch by branch.  What the kernel decides is an input: `epoll_wait` yields a
batch of reported descriptors (or fails), and each reported descriptor comes
with the outcome its `accept`, `epoll_ctl` or `recv` has when it is called.
What the functions do to descriptors is an output: the list of system calls.

The two copies differ in one line, the reaction of the *client* branch to a
closed connection; `LibraryCopy` selects it.
-/

namespace AislabVP
namespace Vpipc

open Foundation

/-- `MODULE_TYPE_SERVER` and `MODULE_TYPE_CLIENT`. -/
inductive ModuleType where
  | server
  | client
  deriving DecidableEq, Repr

/-- `struct vp_ipc_module`. -/
structure VpIpcModule where
  type : ModuleType
  epollFd : Int
  sockFd : Int
  serverFd : Int
  deriving DecidableEq, Repr

/-- `client_is_connect`. -/
def clientIsConnect (vpm : VpIpcModule) : Bool := decide (vpm.sockFd ≠ -1)

/-- `MAX_EVENTS`. -/
def maxEvents : Nat := 10

/-! ## What the kernel answers -/

/-- The bytes one successful `recv` into a `struct vp_transfer_data` returns:
at least one and at most the size of the structure. -/
structure Piece where
  bytes : List Byte
  nonempty : bytes ≠ []
  fits : bytes.length ≤ sizeofTransferData

/-- The piece that is one whole message. -/
def Piece.whole (message : VpTransferData) : Piece where
  bytes := message.image
  nonempty := image_ne_nil message
  fits := (length_image message).le

/-- The value `valread` of `recv`: negative, zero, or positive with bytes. -/
inductive RecvResult where
  | error
  | closed
  | piece (piece : Piece)

/-- One entry of `events` together with the results that the calls made for it
have: the return value of `accept`, whether `epoll_ctl` succeeds, and the
result of `recv`. -/
structure EpollEvent where
  fd : Int
  accept : Int
  epollCtl : Bool
  recv : RecvResult

/-- The listening descriptor is reported and `accept` returns `accepted`. -/
def EpollEvent.connection (vpm : VpIpcModule) (accepted : Int) : EpollEvent :=
  { fd := vpm.serverFd, accept := accepted, epollCtl := true, recv := .error }

/-- A connected descriptor is reported and `recv` has the given result. -/
def EpollEvent.input (fd : Int) (result : RecvResult) : EpollEvent :=
  { fd := fd, accept := -1, epollCtl := false, recv := result }

/-- The calls that create, register or close a descriptor. -/
inductive SysCall where
  | opened (fd : Int)
  | epollAdd (fd : Int) (edgeTriggered : Bool)
  | closed (fd : Int)
  deriving DecidableEq, Repr

/-! ## `create_vp_module` and `cleanup_vp_module` -/

/-- `create_vp_module` when none of its calls fails; `epollFd` and `fd` are the
descriptors `epoll_create1` and `socket` return. -/
def createVpModule (type : ModuleType) (epollFd fd : Int) : VpIpcModule × List SysCall :=
  match type with
  | .server =>
      -- The listener is level-triggered; no client is connected yet.
      ({ type := .server, epollFd := epollFd, sockFd := -1, serverFd := fd },
        [.opened epollFd, .opened fd, .epollAdd fd false])
  | .client =>
      ({ type := .client, epollFd := epollFd, sockFd := fd, serverFd := -1 },
        [.opened epollFd, .opened fd, .epollAdd fd false])

/-- `cleanup_vp_module`. -/
def cleanupVpModule (vpm : VpIpcModule) : List SysCall :=
  (if vpm.sockFd ≠ -1 then [.closed vpm.sockFd] else []) ++
    ((if vpm.serverFd ≠ -1 then [.closed vpm.serverFd] else []) ++
      [.closed vpm.epollFd])

/-! ## `vp_wait` -/

/-- The effect of `vp_wait`, or of one turn of its loop: the module record, the
transfers stored in `vpt[0 .. trans_count - 1]`, the calls made, and whether
the process has ended by `exit(EXIT_FAILURE)`. -/
structure WaitResult where
  vpm : VpIpcModule
  vpt : List VpTransfer
  calls : List SysCall
  exited : Bool

/-- One effect after another. -/
def WaitResult.andThen (first second : WaitResult) : WaitResult where
  vpm := second.vpm
  vpt := first.vpt ++ second.vpt
  calls := first.calls ++ second.calls
  exited := second.exited

/-- The last two branches on `valread`: a piece of any other size than the
structure is reported and dropped, a whole one is stored with its descriptor. -/
def storeTransfer (fd : Int) (piece : Piece) : List VpTransfer :=
  if piece.bytes.length ≠ sizeofTransferData then []
  else [{ sockFd := fd, data := VpTransferData.ofImage piece.bytes }]

/-- What `accept` opens: nothing when it fails. -/
def openedBy (accepted : Int) : List SysCall :=
  if accepted = -1 then [] else [.opened accepted]

/-- The branch of a connection request: `accept`, then `vp_epoll_add` with
`EPOLLIN | EPOLLET`, which closes its descriptor and exits when `epoll_ctl`
fails.  It fails on the descriptor `-1`. -/
def acceptConnection (vpm : VpIpcModule) (event : EpollEvent) : WaitResult :=
  -- Either way `sock_fd` has been overwritten with what `accept` returned.
  if event.accept ≠ -1 ∧ event.epollCtl = true then
    { vpm := { vpm with sockFd := event.accept }
      vpt := []
      calls := openedBy event.accept ++ [.epollAdd event.accept true]
      exited := false }
  else
    { vpm := { vpm with sockFd := event.accept }
      vpt := []
      calls := openedBy event.accept ++ [.closed event.accept]
      exited := true }

/-- The branch of a client request: one `recv` on the reported descriptor. -/
def receiveRequest (vpm : VpIpcModule) (event : EpollEvent) : WaitResult :=
  match event.recv with
  | .error => { vpm := vpm, vpt := [], calls := [.closed event.fd], exited := true }
  -- The descriptor is closed, and `sock_fd` is not looked at.
  | .closed => { vpm := vpm, vpt := [], calls := [.closed event.fd], exited := false }
  | .piece piece =>
      { vpm := vpm, vpt := storeTransfer event.fd piece, calls := [], exited := false }

/-- One turn of the server's `for` loop. -/
def serverEvent (vpm : VpIpcModule) (event : EpollEvent) : WaitResult :=
  if event.fd = vpm.serverFd then acceptConnection vpm event
  else receiveRequest vpm event

/-- The server's `for` loop over the reported events. -/
def serverLoop (vpm : VpIpcModule) : List EpollEvent → WaitResult
  | [] => { vpm := vpm, vpt := [], calls := [], exited := false }
  | event :: rest =>
      let turn := serverEvent vpm event
      if turn.exited then turn else turn.andThen (serverLoop turn.vpm rest)

/-- The two shipped copies of the library. -/
inductive LibraryCopy where
  | qemu
  | systemC
  deriving DecidableEq, Repr

/-- The client branch on its one reported event. -/
def clientEvent (copy : LibraryCopy) (vpm : VpIpcModule) (event : EpollEvent) : WaitResult :=
  -- "sock_fd error"
  if event.fd ≠ vpm.sockFd then
    { vpm := vpm, vpt := [], calls := [], exited := true }
  else
    match event.recv with
    | .error => { vpm := vpm, vpt := [], calls := [.closed vpm.sockFd], exited := true }
    | .closed =>
        -- The one line in which the copies differ.
        match copy with
        | .qemu => { vpm := vpm, vpt := [], calls := [.closed vpm.sockFd], exited := true }
        | .systemC =>
            { vpm := { vpm with sockFd := -1 }
              vpt := []
              calls := [.closed vpm.sockFd]
              exited := false }
    | .piece piece =>
        { vpm := vpm, vpt := storeTransfer vpm.sockFd piece, calls := [], exited := false }

/-- `vp_wait`.  `none` is a failed `epoll_wait`; the client asks for at most one
event. -/
def vpWait (copy : LibraryCopy) (vpm : VpIpcModule) :
    Option (List EpollEvent) → WaitResult
  | none => { vpm := vpm, vpt := [], calls := [], exited := true }
  | some events =>
      match vpm.type with
      | .server => serverLoop vpm events
      | .client =>
          match events with
          | [] => { vpm := vpm, vpt := [], calls := [], exited := false }
          | event :: _ => clientEvent copy vpm event

/-! ## Laws of the event loop -/

@[simp] theorem storeTransfer_whole (fd : Int) (message : VpTransferData) :
    storeTransfer fd (Piece.whole message) = [{ sockFd := fd, data := message }] := by
  have hlength : ¬(Piece.whole message).bytes.length ≠ sizeofTransferData := by
    simp [Piece.whole]
  rw [storeTransfer, if_neg hlength]
  simp [Piece.whole]

@[simp] theorem serverLoop_nil (vpm : VpIpcModule) :
    serverLoop vpm [] = { vpm := vpm, vpt := [], calls := [], exited := false } := rfl

/-- A server goes through the whole batch. -/
theorem vpWait_of_server (copy : LibraryCopy) {vpm : VpIpcModule} (htype : vpm.type = .server)
    (events : List EpollEvent) : vpWait copy vpm (some events) = serverLoop vpm events := by
  simp only [vpWait, htype]

/-- The loop that does not exit runs its first turn and then the rest. -/
theorem serverLoop_cons {vpm : VpIpcModule} {event : EpollEvent} {rest : List EpollEvent}
    (hlive : (serverLoop vpm (event :: rest)).exited = false) :
    (serverEvent vpm event).exited = false ∧
      (serverLoop (serverEvent vpm event).vpm rest).exited = false ∧
      serverLoop vpm (event :: rest) =
        (serverEvent vpm event).andThen
          (serverLoop (serverEvent vpm event).vpm rest) := by
  cases hturn : (serverEvent vpm event).exited with
  | true => simp [serverLoop, hturn] at hlive
  | false =>
      have heq : serverLoop vpm (event :: rest) =
          (serverEvent vpm event).andThen
            (serverLoop (serverEvent vpm event).vpm rest) := by
        simp [serverLoop, hturn]
      refine ⟨rfl, ?_, heq⟩
      rw [heq] at hlive
      exact hlive

/-- No turn of the loop changes anything of the record but `sock_fd`. -/
theorem serverEvent_record (vpm : VpIpcModule) (event : EpollEvent) :
    (serverEvent vpm event).vpm.type = vpm.type ∧
      (serverEvent vpm event).vpm.serverFd = vpm.serverFd ∧
      (serverEvent vpm event).vpm.epollFd = vpm.epollFd := by
  unfold serverEvent
  split
  · unfold acceptConnection
    split <;> exact ⟨rfl, rfl, rfl⟩
  · unfold receiveRequest
    split <;> exact ⟨rfl, rfl, rfl⟩

theorem serverLoop_record (vpm : VpIpcModule) (events : List EpollEvent) :
    (serverLoop vpm events).vpm.type = vpm.type ∧
      (serverLoop vpm events).vpm.serverFd = vpm.serverFd ∧
      (serverLoop vpm events).vpm.epollFd = vpm.epollFd := by
  induction events generalizing vpm with
  | nil => exact ⟨rfl, rfl, rfl⟩
  | cons event rest ih =>
      have hturn := serverEvent_record vpm event
      rw [serverLoop]
      split
      · exact hturn
      · obtain ⟨htype, hserver, hepoll⟩ := ih (serverEvent vpm event).vpm
        exact ⟨htype.trans hturn.1, hserver.trans hturn.2.1, hepoll.trans hturn.2.2⟩

/-- One whole message on a connected descriptor is what `vp_wait` returns. -/
theorem vpWait_server_whole (copy : LibraryCopy) {vpm : VpIpcModule} {fd : Int}
    (htype : vpm.type = .server) (hfd : fd ≠ vpm.serverFd) (message : VpTransferData) :
    vpWait copy vpm (some [EpollEvent.input fd (.piece (Piece.whole message))]) =
      { vpm := vpm, vpt := [{ sockFd := fd, data := message }], calls := [],
        exited := false } := by
  simp [vpWait, htype, serverLoop, serverEvent, EpollEvent.input, hfd, receiveRequest,
    WaitResult.andThen]

theorem vpWait_client_whole (copy : LibraryCopy) {vpm : VpIpcModule}
    (htype : vpm.type = .client) (message : VpTransferData) :
    vpWait copy vpm (some [EpollEvent.input vpm.sockFd (.piece (Piece.whole message))]) =
      { vpm := vpm, vpt := [{ sockFd := vpm.sockFd, data := message }], calls := [],
        exited := false } := by
  simp [vpWait, htype, clientEvent, EpollEvent.input]

end Vpipc
end AislabVP
