import AislabVP.Vpipc.ConnectionState

/-!
# The two copies of the library

The repository ships `vpipc.c` for QEMU and `vpipc.cpp` for SystemC; they are the same text
but for one line.  When `recv` returns 0, the client branch of both copies closes the socket
of the module.  The SystemC copy then sets `sock_fd` to -1, so that `client_is_connect`
tells the caller; the QEMU copy ends the process.

One call of `vp_wait` therefore has different results exactly when a client finds its server
gone (`vpWait_eq_iff`), and two processes that make the same calls behave alike exactly as
long as this does not happen (`behaveAlike_iff`).
-/

namespace AislabVP
namespace Vpipc

open Foundation

/-- The module after a call, if the process still runs. -/
def WaitResult.resume (result : WaitResult) : Option VpIpcModule :=
  if result.exited then none else some result.vpm

/-- The results of one call of `vp_wait` after the other, up to the end of the process. -/
def vpWaitRun (copy : LibraryCopy) :
    VpIpcModule → List (Option (List EpollEvent)) → List WaitResult :=
  traceFrom (vpWait copy) WaitResult.resume

/-- The step of a process that calls `vp_wait`. -/
def waitStep (copy : LibraryCopy) (vpm : VpIpcModule) (outcome : Option (List EpollEvent)) :
    Option VpIpcModule :=
  (vpWait copy vpm outcome).resume

/-- Along a sequence of calls with the same answers of the kernel, both copies return the
same transfers, leave the same module, make the same calls and end the process alike, and
`client_is_connect` agrees after each of the calls. -/
structure BehaveAlike (vpm : VpIpcModule) (outcomes : List (Option (List EpollEvent))) :
    Prop where
  results : vpWaitRun .qemu vpm outcomes = vpWaitRun .systemC vpm outcomes
  connected :
    (vpWaitRun .qemu vpm outcomes).map (fun result => clientIsConnect result.vpm) =
      (vpWaitRun .systemC vpm outcomes).map (fun result => clientIsConnect result.vpm)

/-- `epoll_wait` reports the socket of a client, and `recv` returns 0. -/
def FindsServerGone (vpm : VpIpcModule) (outcome : Option (List EpollEvent)) : Prop :=
  vpm.type = .client ∧ ∃ event rest, outcome = some (event :: rest) ∧
    event.fd = vpm.sockFd ∧ event.recv.isClosed = true

/-! ## One call -/

theorem clientEvent_eq_iff (vpm : VpIpcModule) (event : EpollEvent) :
    clientEvent .qemu vpm event = clientEvent .systemC vpm event ↔
      ¬(event.fd = vpm.sockFd ∧ event.recv.isClosed = true) := by
  unfold clientEvent
  by_cases hfd : event.fd = vpm.sockFd
  · have hown : ¬event.fd ≠ vpm.sockFd := not_not.mpr hfd
    rw [if_neg hown, if_neg hown]
    cases hrecv : event.recv with
    | error => simp [RecvResult.isClosed]
    | closed =>
        -- The results differ in `exited`, whatever `sock_fd` was.
        simp [RecvResult.isClosed, hfd]
    | piece piece => simp [RecvResult.isClosed]
  · rw [if_pos hfd, if_pos hfd]
    exact iff_of_true rfl fun hgone => hfd hgone.1

/-- The copies differ in a call exactly when a client finds its server gone. -/
theorem vpWait_eq_iff (vpm : VpIpcModule) (outcome : Option (List EpollEvent)) :
    vpWait .qemu vpm outcome = vpWait .systemC vpm outcome ↔ ¬FindsServerGone vpm outcome := by
  cases outcome with
  | none =>
      refine iff_of_true rfl ?_
      rintro ⟨-, _, _, hevents, -⟩
      cases hevents
  | some events =>
      cases htype : vpm.type with
      | server =>
          simp only [vpWait, htype]
          refine iff_of_true trivial fun hgone => ?_
          rw [hgone.1] at htype
          cases htype
      | client =>
          simp only [vpWait, htype]
          cases events with
          | nil =>
              refine iff_of_true rfl ?_
              rintro ⟨-, _, _, hevents, -⟩
              cases hevents
          | cons event rest =>
              rw [clientEvent_eq_iff]
              refine not_congr ⟨fun hgone => ⟨htype, event, rest, rfl, hgone⟩, ?_⟩
              rintro ⟨-, _, _, hevents, hgone⟩
              obtain ⟨rfl, rfl⟩ := List.cons.inj (Option.some.inj hevents)
              exact hgone

/-- What each copy does there. -/
theorem vpWait_of_findsServerGone {vpm : VpIpcModule} {outcome : Option (List EpollEvent)}
    (hgone : FindsServerGone vpm outcome) :
    vpWait .qemu vpm outcome =
        { vpm := vpm, vpt := [], calls := [.closed vpm.sockFd], exited := true } ∧
      vpWait .systemC vpm outcome =
        { vpm := { vpm with sockFd := -1 }, vpt := [], calls := [.closed vpm.sockFd],
          exited := false } := by
  obtain ⟨htype, event, rest, rfl, hfd, hclosed⟩ := hgone
  cases hrecv : event.recv with
  | closed => simp [vpWait, htype, clientEvent, hfd, hrecv]
  | error => simp [hrecv, RecvResult.isClosed] at hclosed
  | piece piece => simp [hrecv, RecvResult.isClosed] at hclosed

theorem clientEvent_type (copy : LibraryCopy) (vpm : VpIpcModule) (event : EpollEvent) :
    (clientEvent copy vpm event).vpm.type = vpm.type := by
  unfold clientEvent
  split
  · rfl
  · cases event.recv with
    | error => rfl
    | closed => cases copy <;> rfl
    | piece piece => rfl

/-- A module stays what it is. -/
theorem vpWait_type (copy : LibraryCopy) (vpm : VpIpcModule)
    (outcome : Option (List EpollEvent)) : (vpWait copy vpm outcome).vpm.type = vpm.type := by
  cases outcome with
  | none => rfl
  | some events =>
      cases htype : vpm.type with
      | server =>
          simp only [vpWait, htype]
          exact (serverLoop_record vpm events).1.trans htype
      | client =>
          simp only [vpWait, htype]
          cases events with
          | nil => exact htype
          | cons event rest => exact (clientEvent_type copy vpm event).trans htype

theorem waitStep_eq_some {copy : LibraryCopy} {vpm next : VpIpcModule}
    {outcome : Option (List EpollEvent)} (hstep : waitStep copy vpm outcome = some next) :
    (vpWait copy vpm outcome).exited = false ∧ next = (vpWait copy vpm outcome).vpm := by
  unfold waitStep WaitResult.resume at hstep
  cases hexited : (vpWait copy vpm outcome).exited with
  | true => simp [hexited] at hstep
  | false =>
      rw [hexited] at hstep
      exact ⟨rfl, (Option.some.inj hstep).symm⟩

/-! ## Sequences of calls -/

/-- Two processes that call `vp_wait` of the two copies behave alike if and only if in no
call a client finds its server gone. -/
theorem behaveAlike_iff (vpm : VpIpcModule) (outcomes : List (Option (List EpollEvent))) :
    BehaveAlike vpm outcomes ↔
      GuardedRun (waitStep .systemC) (fun vpm outcome => ¬FindsServerGone vpm outcome)
        vpm outcomes := by
  have htrace : vpWaitRun .qemu vpm outcomes = vpWaitRun .systemC vpm outcomes ↔
      GuardedRun (waitStep .systemC) (fun vpm outcome => ¬FindsServerGone vpm outcome)
        vpm outcomes := traceFrom_eq_iff_guardedRun vpWait_eq_iff vpm outcomes
  rw [← htrace]
  exact ⟨BehaveAlike.results, fun hresults => ⟨hresults, by rw [hresults]⟩⟩

/-- Servers always do. -/
theorem behaveAlike_of_server {vpm : VpIpcModule} (htype : vpm.type = .server)
    (outcomes : List (Option (List EpollEvent))) : BehaveAlike vpm outcomes := by
  have hkeep : ∀ state outcome next, state.type = ModuleType.server →
      waitStep .systemC state outcome = some next → next.type = ModuleType.server := by
    intro state outcome next hserver hnext
    rw [(waitStep_eq_some hnext).2, vpWait_type]
    exact hserver
  have hguard : ∀ state outcome, state.type = ModuleType.server →
      ¬FindsServerGone state outcome := by
    intro state outcome hserver hgone
    rw [hgone.1] at hserver
    cases hserver
  exact (behaveAlike_iff vpm outcomes).mpr
    (guardedRun_of_invariant hkeep hguard htype outcomes)

/-- The client that `create_vp_module` returns for the descriptors 3 and 4. -/
def connectedClient : VpIpcModule := (createVpModule .client 3 4).1

/-- The server closes the connection: one copy ends the process, the other returns 0 with
`sock_fd` unset. -/
theorem copies_differ_on_disconnect :
    (vpWaitRun .qemu connectedClient [some [.input 4 .closed]]).map WaitResult.exited = [true] ∧
      (vpWaitRun .systemC connectedClient [some [.input 4 .closed]]).map WaitResult.exited =
        [false] ∧
      ¬BehaveAlike connectedClient [some [.input 4 .closed]] := by
  refine ⟨rfl, rfl, fun halike => ?_⟩
  have hexited := congrArg (List.map WaitResult.exited) halike.results
  exact absurd hexited (by decide)

end Vpipc
end AislabVP
