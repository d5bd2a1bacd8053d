import AislabVP.Foundation.Frames
import AislabVP.Vpipc.Wait

/-!
# Framing over the byte stream

TCP carries a byte stream, so the 32-byte images that `vp_nb_response` and
`vp_b_transfer` send may come out of `recv` in any non-empty pieces.  This
module runs `vp_wait` over a whole connection and says which transfers it
delivers.

`vp_wait` keeps no bytes between two calls of `recv`: a piece shorter than the
structure takes the `read size error` branch and is gone
(`deliveredOn_vpWaitCalls`).  Hence delivery is the `wholeFrames` of the
library, and the messages arrive unharmed exactly when every `recv` returns
one whole message (`vpWaitCalls_delivers_iff`).
-/

namespace AislabVP
namespace Vpipc

open Foundation

/-! ## Successive calls -/

/-- Successive `vp_wait` calls, until one of them ends the process. -/
def vpWaitCalls (copy : LibraryCopy) (vpm : VpIpcModule) :
    List (List EpollEvent) → WaitResult
  | [] => { vpm := vpm, vpt := [], calls := [], exited := false }
  | batch :: rest =>
      let call := vpWait copy vpm (some batch)
      if call.exited then call else call.andThen (vpWaitCalls copy call.vpm rest)

theorem vpWaitCalls_cons {copy : LibraryCopy} {vpm : VpIpcModule}
    {batch : List EpollEvent} {rest : List (List EpollEvent)}
    (hlive : (vpWaitCalls copy vpm (batch :: rest)).exited = false) :
    (vpWait copy vpm (some batch)).exited = false ∧
      (vpWaitCalls copy (vpWait copy vpm (some batch)).vpm rest).exited = false ∧
      vpWaitCalls copy vpm (batch :: rest) =
        (vpWait copy vpm (some batch)).andThen
          (vpWaitCalls copy (vpWait copy vpm (some batch)).vpm rest) := by
  cases hcall : (vpWait copy vpm (some batch)).exited with
  | true => simp [vpWaitCalls, hcall] at hlive
  | false =>
      have heq : vpWaitCalls copy vpm (batch :: rest) =
          (vpWait copy vpm (some batch)).andThen
            (vpWaitCalls copy (vpWait copy vpm (some batch)).vpm rest) := by
        simp [vpWaitCalls, hcall]
      refine ⟨rfl, ?_, heq⟩
      rw [heq] at hlive
      exact hlive

theorem vpWaitCalls_take_live {copy : LibraryCopy} {vpm : VpIpcModule}
    {batches : List (List EpollEvent)}
    (hlive : (vpWaitCalls copy vpm batches).exited = false) (count : Nat) :
    (vpWaitCalls copy vpm (batches.take count)).exited = false := by
  induction batches generalizing vpm count with
  | nil => simp [vpWaitCalls]
  | cons batch rest ih =>
      cases count with
      | zero => rfl
      | succ count =>
          obtain ⟨hcall, hrest, -⟩ := vpWaitCalls_cons hlive
          rw [List.take_succ_cons, vpWaitCalls]
          simp only [hcall, Bool.false_eq_true, if_false]
          exact ih hrest count

/-! ## The pieces of one connection and what is delivered from it -/

/-- The piece that `recv` returns for this event, if it is one of `fd`. -/
def eventPieces (fd : Int) (event : EpollEvent) : List (List Byte) :=
  if event.fd = fd then
    match event.recv with
    | .piece piece => [piece.bytes]
    | .error | .closed => []
  else []

/-- The pieces that the successive `recv` calls on `fd` return. -/
def recvPieces (fd : Int) (batches : List (List EpollEvent)) : List (List Byte) :=
  batches.flatten.flatMap (eventPieces fd)

/-- The messages delivered from `fd`, in order. -/
def deliveredOn (fd : Int) (result : WaitResult) : List VpTransferData :=
  (result.vpt.filter fun transfer => decide (transfer.sockFd = fd)).map VpTransfer.data

/-- The messages decoded from the pieces of the full size. -/
def wholeMessages (pieces : List (List Byte)) : List VpTransferData :=
  (wholeFrames sizeofTransferData pieces).map VpTransferData.ofImage

theorem wholeMessages_append (front back : List (List Byte)) :
    wholeMessages (front ++ back) = wholeMessages front ++ wholeMessages back := by
  simp [wholeMessages, wholeFrames]

theorem deliveredOn_andThen (fd : Int) (first second : WaitResult) :
    deliveredOn fd (first.andThen second) =
      deliveredOn fd first ++ deliveredOn fd second := by
  simp [deliveredOn, WaitResult.andThen]

/-- The transfer stored for a piece, seen from one connection. -/
theorem filter_storeTransfer (fd other : Int) (piece : Piece) :
    ((storeTransfer other piece).filter fun transfer => decide (transfer.sockFd = fd)).map
        VpTransfer.data =
      if other = fd then wholeMessages [piece.bytes] else [] := by
  by_cases hsize : piece.bytes.length = sizeofTransferData
  · by_cases hfd : other = fd
    · simp [storeTransfer, wholeMessages, wholeFrames, hsize, hfd]
    · simp [storeTransfer, hsize, hfd]
  · simp [storeTransfer, wholeMessages, wholeFrames, hsize]

theorem deliveredOn_serverEvent {vpm : VpIpcModule} {fd : Int}
    (hfd : fd ≠ vpm.serverFd) (event : EpollEvent) :
    deliveredOn fd (serverEvent vpm event) = wholeMessages (eventPieces fd event) := by
  unfold serverEvent
  by_cases hserver : event.fd = vpm.serverFd
  · have hother : event.fd ≠ fd := fun h => hfd (h.symm.trans hserver)
    rw [if_pos hserver, acceptConnection, eventPieces, if_neg hother]
    split <;> rfl
  · rw [if_neg hserver, receiveRequest, eventPieces]
    cases event.recv with
    | error => simp [deliveredOn, wholeMessages, wholeFrames]
    | closed => simp [deliveredOn, wholeMessages, wholeFrames]
    | piece piece =>
        simp only [deliveredOn, filter_storeTransfer]
        split <;> simp [wholeMessages, wholeFrames]

theorem deliveredOn_serverLoop {vpm : VpIpcModule} {fd : Int}
    (hfd : fd ≠ vpm.serverFd) {events : List EpollEvent}
    (hlive : (serverLoop vpm events).exited = false) :
    deliveredOn fd (serverLoop vpm events) =
      wholeMessages (events.flatMap (eventPieces fd)) := by
  induction events generalizing vpm with
  | nil => rfl
  | cons event rest ih =>
      obtain ⟨-, hrest, heq⟩ := serverLoop_cons hlive
      have hfd' : fd ≠ (serverEvent vpm event).vpm.serverFd := by
        rw [(serverEvent_record vpm event).2.1]
        exact hfd
      rw [heq, deliveredOn_andThen, deliveredOn_serverEvent hfd, ih hfd' hrest,
        List.flatMap_cons, wholeMessages_append]

/-- `fd` is a connection this module reads: a descriptor other than the
listener for a server; the one socket for a client, whose `epoll_wait` reports
one event at most. -/
def ReadsFrom (vpm : VpIpcModule) (fd : Int) (batches : List (List EpollEvent)) : Prop :=
  match vpm.type with
  | .server => fd ≠ vpm.serverFd
  | .client => fd = vpm.sockFd ∧ ∀ batch ∈ batches, batch.length ≤ 1

instance (vpm : VpIpcModule) (fd : Int) (batches : List (List EpollEvent)) :
    Decidable (ReadsFrom vpm fd batches) := by
  unfold ReadsFrom
  split <;> infer_instance

theorem deliveredOn_server_calls {copy : LibraryCopy} {vpm : VpIpcModule} {fd : Int}
    (htype : vpm.type = .server) (hfd : fd ≠ vpm.serverFd)
    {batches : List (List EpollEvent)}
    (hlive : (vpWaitCalls copy vpm batches).exited = false) :
    deliveredOn fd (vpWaitCalls copy vpm batches) =
      wholeMessages (recvPieces fd batches) := by
  induction batches generalizing vpm with
  | nil => rfl
  | cons batch rest ih =>
      obtain ⟨hcall, hrest, heq⟩ := vpWaitCalls_cons hlive
      have hwait : vpWait copy vpm (some batch) = serverLoop vpm batch := by
        simp [vpWait, htype]
      have hrecord := serverLoop_record vpm batch
      rw [← hwait] at hrecord
      have hnext := ih (hrecord.1.trans htype) (by rw [hrecord.2.1]; exact hfd) hrest
      rw [heq, deliveredOn_andThen, hnext, hwait, deliveredOn_serverLoop hfd (hwait ▸ hcall)]
      simp [recvPieces, wholeMessages_append]

/-- One event of the client.  After the socket was closed the record holds
`-1`, and a report of any other descriptor ends the process. -/
theorem clientEvent_delivers {copy : LibraryCopy} {vpm : VpIpcModule} {fd : Int}
    (hfd : vpm.sockFd = fd ∨ vpm.sockFd = -1) {event : EpollEvent}
    (hlive : (clientEvent copy vpm event).exited = false) :
    (clientEvent copy vpm event).vpm.type = vpm.type ∧
      ((clientEvent copy vpm event).vpm.sockFd = fd ∨
        (clientEvent copy vpm event).vpm.sockFd = -1) ∧
      deliveredOn fd (clientEvent copy vpm event) =
        wholeMessages (eventPieces fd event) := by
  unfold clientEvent at hlive ⊢
  by_cases hevent : event.fd = vpm.sockFd
  · simp only [hevent, ne_eq, not_true_eq_false, if_false, eventPieces] at hlive ⊢
    cases hrecv : event.recv with
    | error => simp [hrecv] at hlive
    | closed =>
        cases copy with
        | qemu => simp [hrecv] at hlive
        -- Nothing is delivered, and from here on the record holds `-1`.
        | systemC => simp [deliveredOn, wholeMessages, wholeFrames]
    | piece piece =>
        refine ⟨rfl, hfd, ?_⟩
        simp only [deliveredOn, filter_storeTransfer]
        split <;> simp [wholeMessages, wholeFrames]
  · simp [hevent] at hlive

theorem deliveredOn_client_calls {copy : LibraryCopy} {vpm : VpIpcModule} {fd : Int}
    (htype : vpm.type = .client) (hfd : vpm.sockFd = fd ∨ vpm.sockFd = -1)
    {batches : List (List EpollEvent)} (hone : ∀ batch ∈ batches, batch.length ≤ 1)
    (hlive : (vpWaitCalls copy vpm batches).exited = false) :
    deliveredOn fd (vpWaitCalls copy vpm batches) =
      wholeMessages (recvPieces fd batches) := by
  induction batches generalizing vpm with
  | nil => rfl
  | cons batch rest ih =>
      obtain ⟨hcall, hrest, heq⟩ := vpWaitCalls_cons hlive
      have honeRest : ∀ batch ∈ rest, batch.length ≤ 1 :=
        fun batch hbatch => hone batch (List.mem_cons_of_mem _ hbatch)
      have hbatch := hone batch List.mem_cons_self
      match batch with
      | [] =>
          have hwait : vpWait copy vpm (some []) =
              { vpm := vpm, vpt := [], calls := [], exited := false } := by
            simp [vpWait, htype]
          rw [hwait] at hrest heq
          rw [heq, deliveredOn_andThen, ih htype hfd honeRest hrest]
          simp [deliveredOn, recvPieces]
      | [event] =>
          have hwait : vpWait copy vpm (some [event]) = clientEvent copy vpm event := by
            simp [vpWait, htype]
          rw [hwait] at hcall hrest heq
          obtain ⟨htype', hfd', hdelivered⟩ := clientEvent_delivers hfd hcall
          rw [heq, deliveredOn_andThen, hdelivered,
            ih (htype'.trans htype) hfd' honeRest hrest]
          simp [recvPieces, wholeMessages_append]
      | _ :: _ :: _ => simp at hbatch

/-- The specification of a run of `vp_wait` calls: the messages delivered are
those decoded from the pieces that happen to have the full size. -/
theorem deliveredOn_vpWaitCalls {copy : LibraryCopy} {vpm : VpIpcModule} {fd : Int}
    {batches : List (List EpollEvent)} (hreads : ReadsFrom vpm fd batches)
    (hlive : (vpWaitCalls copy vpm batches).exited = false) :
    deliveredOn fd (vpWaitCalls copy vpm batches) =
      wholeMessages (recvPieces fd batches) := by
  unfold ReadsFrom at hreads
  cases htype : vpm.type with
  | server =>
      simp only [htype] at hreads
      exact deliveredOn_server_calls htype hreads hlive
  | client =>
      simp only [htype] at hreads
      exact deliveredOn_client_calls htype (Or.inl hreads.1.symm) hreads.2 hlive

theorem recvPieces_take_mono (fd : Int) (batches : List (List EpollEvent)) (count : Nat) :
    recvPieces fd (batches.take count) <+: recvPieces fd batches := by
  refine ⟨recvPieces fd (batches.drop count), ?_⟩
  rw [recvPieces, recvPieces, ← List.flatMap_append, ← List.flatten_append,
    List.take_append_drop, recvPieces]

theorem recvPieces_ne_nil {fd : Int} {batches : List (List EpollEvent)}
    {piece : List Byte} (hpiece : piece ∈ recvPieces fd batches) : piece ≠ [] := by
  rcases List.mem_flatMap.mp hpiece with ⟨event, -, hevent⟩
  unfold eventPieces at hevent
  split at hevent
  · split at hevent
    · rename_i received _
      rw [List.mem_singleton.mp hevent]
      exact received.nonempty
    · simp at hevent
    · simp at hevent
  · simp at hevent

/-! ## When the messages arrive unharmed -/

/-- The stream of a list of messages. -/
def streamOf (messages : List VpTransferData) : List Byte :=
  (messages.map VpTransferData.image).flatten

/-- The transfers delivered by the successive `vp_wait` calls form a prefix of
the sent messages at every moment, and are all of them at the end. -/
def DeliversMessages (copy : LibraryCopy) (vpm : VpIpcModule) (fd : Int)
    (batches : List (List EpollEvent)) (messages : List VpTransferData) : Prop :=
  (∀ count, deliveredOn fd (vpWaitCalls copy vpm (batches.take count)) <+: messages) ∧
    deliveredOn fd (vpWaitCalls copy vpm batches) = messages

/-- Over a connection whose bytes have all been received, the messages come out
as they were sent if and only if every `recv` returned one whole message. -/
theorem vpWaitCalls_delivers_iff (copy : LibraryCopy) (vpm : VpIpcModule) (fd : Int)
    (batches : List (List EpollEvent)) (messages : List VpTransferData)
    (hreads : ReadsFrom vpm fd batches)
    (hlive : (vpWaitCalls copy vpm batches).exited = false)
    (hstream : (recvPieces fd batches).flatten = streamOf messages) :
    DeliversMessages copy vpm fd batches messages ↔
      ∀ piece ∈ recvPieces fd batches, piece.length = sizeofTransferData := by
  have hdelivered := deliveredOn_vpWaitCalls hreads hlive
  have hexact : wholeMessages (recvPieces fd batches) = messages ↔
      ∀ piece ∈ recvPieces fd batches, piece.length = sizeofTransferData :=
    map_wholeFrames_eq_iff (by decide) ofImage_image length_image
      (fun _ hpiece => recvPieces_ne_nil hpiece) hstream
  constructor
  · rintro ⟨-, hall⟩
    exact hexact.mp (hdelivered.symm.trans hall)
  · -- Earlier moments are prefixes of the calls, hence of the pieces, hence of the frames.
    intro hwhole
    have hall : deliveredOn fd (vpWaitCalls copy vpm batches) = messages :=
      hdelivered.trans (hexact.mpr hwhole)
    refine ⟨fun count => ?_, hall⟩
    have hreadsTake : ReadsFrom vpm fd (batches.take count) := by
      unfold ReadsFrom at hreads ⊢
      cases htype : vpm.type with
      | server =>
          simp only [htype] at hreads ⊢
          exact hreads
      | client =>
          simp only [htype] at hreads ⊢
          exact ⟨hreads.1, fun batch hbatch => hreads.2 batch (List.mem_of_mem_take hbatch)⟩
    rw [deliveredOn_vpWaitCalls hreadsTake (vpWaitCalls_take_live hlive count), ← hall,
      hdelivered]
    exact (wholeFrames_mono (recvPieces_take_mono fd batches count)).map _

/-- A server with listener `4` and a client on descriptor `5`. -/
def exampleServer : VpIpcModule := (createVpModule .server 3 4).1

/-- The two 4-byte writes `mmio[0] = 1; mmio[1] = 2`. -/
def exampleWrites : List VpTransferData :=
  [{ type := VpType.vpWrite.code, length := 4, addr := 0x6000000, data := 1 },
    { type := VpType.vpWrite.code, length := 4, addr := 0x6000004, data := 2 }]

/-- One `vp_wait` call for each piece that `recv` returns. -/
def oneRecvPerCall (fd : Int) (pieces : List Piece) : List (List EpollEvent) :=
  pieces.map fun piece => [EpollEvent.input fd (.piece piece)]

theorem vpWaitCalls_delivers_whole_writes :
    DeliversMessages .qemu exampleServer 5
      (oneRecvPerCall 5 (exampleWrites.map Piece.whole)) exampleWrites :=
  (vpWaitCalls_delivers_iff .qemu exampleServer 5
    (oneRecvPerCall 5 (exampleWrites.map Piece.whole)) exampleWrites
    (by decide) (by decide) (by decide)).mpr (by decide)

/-- The stream of the two writes, cut after 16 and after 48 bytes. -/
def exampleCut : List Piece :=
  [⟨(streamOf exampleWrites).take 16, by decide, by decide⟩,
    ⟨((streamOf exampleWrites).drop 16).take 32, by decide, by decide⟩,
    ⟨(streamOf exampleWrites).drop 48, by decide, by decide⟩]

/-- Two short pieces around a full one: both writes are lost, and a message
made of the second half of the first and the first half of the second is
delivered in their place. -/
theorem vpWaitCalls_mixes_cut_writes :
    ReadsFrom exampleServer 5 (oneRecvPerCall 5 exampleCut) ∧
      (vpWaitCalls .qemu exampleServer (oneRecvPerCall 5 exampleCut)).exited = false ∧
      (recvPieces 5 (oneRecvPerCall 5 exampleCut)).flatten = streamOf exampleWrites ∧
      deliveredOn 5 (vpWaitCalls .qemu exampleServer (oneRecvPerCall 5 exampleCut)) =
        [{ type := 0x6000000, length := 1, addr := VpType.vpWrite.code, data := 4 }] ∧
      ¬DeliversMessages .qemu exampleServer 5 (oneRecvPerCall 5 exampleCut)
        exampleWrites := by
  refine ⟨by decide, by decide, by decide, by decide, ?_⟩
  rintro ⟨-, hall⟩
  exact absurd hall (by decide)

end Vpipc
end AislabVP
