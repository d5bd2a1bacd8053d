import AislabVP.Qemu.MmioBus

/-!
# What `vp_b_transfer` returns

`vp_b_transfer` sends a request and receives the answer into its local `resp`.  It looks
at the result of neither call, so whatever `recv` did not store is what the memory of
`resp` held before, often the answer of an earlier call.  Its callers check the type and
the status of the returned message only.

`NoGarbage` asks that an answer which passes this check consists of received bytes and
that the value which `mmio_bus_read` returns does not depend on the old content.  This is
so if and only if `recv` returned all 32 bytes (`noGarbage_iff_whole`).
-/

namespace AislabVP
namespace Platform

open Foundation Vpipc Qemu

/-- The value that `send` returns: an error or a number of bytes. -/
inductive SendResult where
  | error
  | sent (count : Nat)
  deriving DecidableEq, Repr

/-- What the kernel answers to the two calls of `vp_b_transfer`. -/
structure TransferOutcome where
  send : SendResult
  recv : RecvResult

/-- The bytes that `recv` stores. -/
def storedBytes : RecvResult → List Byte
  | .error | .closed => []
  | .piece piece => piece.bytes

/-- `vp_b_transfer`, where the memory of `resp.data` holds `stale` before. -/
def vpBTransferInto (stale : VpTransferData) (outcome : TransferOutcome) : VpTransferData :=
  -- The result of `send` is dropped, and so is that of `recv`.
  VpTransferData.ofImage (overlay stale.image (storedBytes outcome.recv))

/-- The check of the callers on what they received. -/
def FindsOk (expected : VpType) (vptRecv : VpTransferData) : Prop :=
  vptRecv.type = expected.code ∧ vptRecv.status = vpOk

instance (expected : VpType) (vptRecv : VpTransferData) : Decidable (FindsOk expected vptRecv) :=
  inferInstanceAs (Decidable (_ ∧ _))

/-- The value that `mmio_bus_read` returns when its transfer has the given outcome. -/
def mmioBusReadInto (vpm : VpIpcModule) (stale : VpTransferData) (outcome : TransferOutcome)
    (offset : BitVec 64) (size : BitVec 32) : Option (BitVec 64) :=
  (mmioBusRead vpm (fun _ _ => ((), some (vpBTransferInto stale outcome))) () offset size).2

/-- No memory garbage is passed off as an answer. -/
structure NoGarbage (outcome : TransferOutcome) : Prop where
  genuine : ∀ stale, ∀ expected ∈ [VpType.vpReadResp, VpType.vpWriteResp],
    FindsOk expected (vpBTransferInto stale outcome) →
      (vpBTransferInto stale outcome).image = storedBytes outcome.recv
  sameValue : ∀ vpm stale other offset size,
    mmioBusReadInto vpm stale outcome offset size = mmioBusReadInto vpm other outcome offset size

/-! ## The bytes of the result -/

theorem length_stored_le (result : RecvResult) :
    (storedBytes result).length ≤ sizeofTransferData := by
  cases result with
  | error => exact Nat.zero_le _
  | closed => exact Nat.zero_le _
  | piece piece => exact piece.fits

/-- The result is the old content with the stored bytes laid over it. -/
theorem image_vpBTransferInto (stale : VpTransferData) (outcome : TransferOutcome) :
    (vpBTransferInto stale outcome).image =
      overlay stale.image (storedBytes outcome.recv) := by
  apply image_ofImage
  have hfits := length_stored_le outcome.recv
  rw [← length_image stale] at hfits
  rw [length_overlay hfits, length_image]

/-- The bytes that `recv` did not store are the old ones. -/
theorem drop_image_vpBTransferInto (stale : VpTransferData) (outcome : TransferOutcome)
    {position : Nat} (hposition : (storedBytes outcome.recv).length ≤ position) :
    (vpBTransferInto stale outcome).image.drop position = stale.image.drop position := by
  rw [image_vpBTransferInto, drop_overlay _ hposition]

/-- The last eight bytes of an image are the word `data`. -/
theorem drop_image_data (message : VpTransferData) :
    message.image.drop 24 = leBytes 8 message.data.toNat := by
  have hfront : message.image =
      (leBytes 8 message.type.toNat ++ (leBytes 8 message.length.toNat ++
        leBytes 8 message.addr.toNat)) ++ leBytes 8 message.data.toNat := by
    simp only [VpTransferData.image, List.append_assoc]
  rw [hfront]
  exact List.drop_left' (by simp)

/-- With a connected client the guest gets the word `data` of the result. -/
theorem mmioBusReadInto_connected {vpm : VpIpcModule} (hconnected : clientIsConnect vpm = true)
    (stale : VpTransferData) (outcome : TransferOutcome) (offset : BitVec 64)
    (size : BitVec 32) :
    mmioBusReadInto vpm stale outcome offset size =
      some (vpBTransferInto stale outcome).data := by
  rw [mmioBusReadInto, mmioBusRead, if_pos hconnected]
  rfl

/-! ## The result -/

/-- All bytes of the result were received, if `recv` returned as many as it has. -/
theorem vpBTransferInto_of_whole {outcome : TransferOutcome}
    (hwhole : (storedBytes outcome.recv).length = sizeofTransferData)
    (stale : VpTransferData) :
    vpBTransferInto stale outcome =
        VpTransferData.ofImage (storedBytes outcome.recv) ∧
      (vpBTransferInto stale outcome).image = storedBytes outcome.recv := by
  have hoverlay : overlay stale.image (storedBytes outcome.recv) =
      storedBytes outcome.recv :=
    overlay_of_length_le (by rw [length_image, hwhole])
  exact ⟨by rw [vpBTransferInto, hoverlay], by rw [image_vpBTransferInto, hoverlay]⟩

/-- An old content whose last byte is zero, and one whose last byte is not. -/
def staleWithTop (top : BitVec 64) : VpTransferData where
  type := 0
  length := 0
  addr := 0
  data := top

/-- Nothing of the answer is memory garbage if and only if `recv` returned a whole
message, whatever `send` returned. -/
theorem noGarbage_iff_whole (outcome : TransferOutcome) :
    NoGarbage outcome ↔
      (storedBytes outcome.recv).length = sizeofTransferData := by
  constructor
  · -- A short `recv` leaves the last byte of `data` to the old content.
    intro hclean
    by_contra hshort
    have hposition : (storedBytes outcome.recv).length ≤ 31 := by
      have hfits := length_stored_le outcome.recv
      unfold sizeofTransferData at hfits hshort
      omega
    have hvalue := hclean.sameValue
      { type := .server, epollFd := 3, sockFd := 5, serverFd := 4 }
      (staleWithTop 0) (staleWithTop 0x0100000000000000) 0 4
    rw [mmioBusReadInto_connected rfl, mmioBusReadInto_connected rfl] at hvalue
    have hdata := Option.some.inj hvalue
    have hlast : ∀ stale, (leBytes 8 (vpBTransferInto stale outcome).data.toNat).drop 7 =
        stale.image.drop 31 := by
      intro stale
      rw [← drop_image_data, List.drop_drop]
      exact drop_image_vpBTransferInto stale outcome hposition
    have hbytes : (staleWithTop 0).image.drop 31 =
        (staleWithTop 0x0100000000000000).image.drop 31 := by
      rw [← hlast, ← hlast, hdata]
    exact absurd hbytes (by decide)
  · intro hwhole
    constructor
    · intro stale expected _ _
      exact (vpBTransferInto_of_whole hwhole stale).2
    · intro vpm stale other offset size
      unfold mmioBusReadInto
      rw [(vpBTransferInto_of_whole hwhole stale).1, (vpBTransferInto_of_whole hwhole other).1]

/-- The answer to an earlier read of the value 42. -/
def earlierAnswer : VpTransferData where
  type := VpType.vpReadResp.code
  length := vpOk
  addr := mmioAddr
  data := 42

/-- The peer has closed the connection and nothing is received.  A read and a write
after an answer of theirs find a good answer all the same, and the guest reads the old
value. -/
theorem closed_peer_answers_from_memory :
    let outcome : TransferOutcome := { send := .sent 32, recv := .closed }
    let vpm : VpIpcModule := { type := .server, epollFd := 3, sockFd := 5, serverFd := 4 }
    storedBytes outcome.recv = [] ∧
      FindsOk .vpReadResp (vpBTransferInto earlierAnswer outcome) ∧
      FindsOk .vpWriteResp (vpBTransferInto
        { earlierAnswer with type := VpType.vpWriteResp.code } outcome) ∧
      mmioBusReadInto vpm earlierAnswer outcome 0 4 = some 42 ∧
      mmioBusReadInto vpm { earlierAnswer with data := 43 } outcome 0 4 = some 43 ∧
      ¬NoGarbage outcome := by
  refine ⟨rfl, by decide, by decide, by decide, by decide, fun hclean => ?_⟩
  have hsame := hclean.sameValue
    { type := .server, epollFd := 3, sockFd := 5, serverFd := 4 } earlierAnswer
    { earlierAnswer with data := 43 } 0 4
  exact absurd hsame (by decide)

end Platform
end AislabVP
