import AislabVP.Foundation.Bytes

/-!
# The VPIPC message

`vpipc.h` fixes one message, `struct vp_transfer_data`: four 64-bit words, of
which the second is a union of `status` and `length`.  Both processes send the
object representation of the structure, so a message on the wire is exactly
its 32-byte little-endian image.

`VpType.ofCode` is the `switch` of the two dispatchers: a 64-bit `type` word
either is one of the seven enumerators or falls to the `default` branch.
-/

namespace AislabVP
namespace Vpipc

open Foundation

/-- `enum VP_Type`. -/
inductive VpType where
  | vpWrite
  | vpRead
  | vpRaiseIrq
  | vpWriteResp
  | vpReadResp
  | vpRaiseIrqResp
  | vpError
  deriving DecidableEq, Repr

/-- The value an enumerator has in the `type` word. -/
def VpType.code : VpType → BitVec 64
  | .vpWrite => 0
  | .vpRead => 1
  | .vpRaiseIrq => 2
  | .vpWriteResp => 3
  | .vpReadResp => 4
  | .vpRaiseIrqResp => 5
  | .vpError => 6

/-- The enumerator a `type` word stands for, if it is one. -/
def VpType.ofCode (code : BitVec 64) : Option VpType :=
  match code.toNat with
  | 0 => some .vpWrite
  | 1 => some .vpRead
  | 2 => some .vpRaiseIrq
  | 3 => some .vpWriteResp
  | 4 => some .vpReadResp
  | 5 => some .vpRaiseIrqResp
  | 6 => some .vpError
  | _ => none

@[simp] theorem VpType.ofCode_code (type : VpType) :
    VpType.ofCode type.code = some type := by
  cases type <;> rfl

theorem VpType.code_of_ofCode {code : BitVec 64} {type : VpType}
    (h : VpType.ofCode code = some type) : code = type.code := by
  apply BitVec.eq_of_toNat_eq
  unfold VpType.ofCode at h
  split at h <;> cases h <;> assumption

/-- `VP_OK`. -/
def vpOk : BitVec 64 := 0

/-- `VP_FAIL`. -/
def vpFail : BitVec 64 := 1

/-- `struct vp_transfer_data`.  The field `length` is the union of `status`
and `length`: requests use it as a length, responses as a status. -/
structure VpTransferData where
  type : BitVec 64
  length : BitVec 64
  addr : BitVec 64
  data : BitVec 64
  deriving DecidableEq, Repr, Inhabited

/-- The other member of the union. -/
def VpTransferData.status (message : VpTransferData) : BitVec 64 := message.length

/-- `struct vp_transfer`: a message and the descriptor it was read from or is
sent on. -/
structure VpTransfer where
  sockFd : Int
  data : VpTransferData
  deriving DecidableEq, Repr, Inhabited

/-- `sizeof(struct vp_transfer_data)`. -/
def sizeofTransferData : Nat := 32

/-! ## The wire image -/

/-- The object representation of a message. -/
def VpTransferData.image (message : VpTransferData) : List Byte :=
  leBytes 8 message.type.toNat ++ (leBytes 8 message.length.toNat ++
    (leBytes 8 message.addr.toNat ++ leBytes 8 message.data.toNat))

/-- The 64-bit word at byte `offset` of an object. -/
def wordAt (offset : Nat) (bytes : List Byte) : BitVec 64 :=
  BitVec.ofNat 64 (leValue ((bytes.drop offset).take 8))

/-- The message whose object representation is given. -/
def VpTransferData.ofImage (bytes : List Byte) : VpTransferData where
  type := wordAt 0 bytes
  length := wordAt 8 bytes
  addr := wordAt 16 bytes
  data := wordAt 24 bytes

@[simp] theorem length_image (message : VpTransferData) :
    message.image.length = sizeofTransferData := by
  simp [VpTransferData.image, sizeofTransferData]

theorem image_ne_nil (message : VpTransferData) : message.image ≠ [] := by
  intro h
  have hlength := length_image message
  rw [h] at hlength
  exact absurd hlength (by decide)

theorem leBytes_toNat_roundtrip (word : BitVec 64) :
    BitVec.ofNat 64 (leValue (leBytes 8 word.toNat)) = word := by
  apply BitVec.eq_of_toNat_eq
  rw [leValue_leBytes, BitVec.toNat_ofNat]
  have hword := word.isLt
  omega

/-- A word of at most eight bytes survives in a 64-bit field. -/
theorem leBytes_ofNat_leValue (bytes : List Byte) (hlength : bytes.length ≤ 8) :
    leBytes bytes.length (BitVec.ofNat 64 (leValue bytes)).toNat = bytes := by
  rw [BitVec.toNat_ofNat, show (2 : Nat) ^ 64 = 256 ^ 8 from by norm_num,
    leBytes_mod _ 8 _ hlength, leBytes_leValue]

theorem wordAt_append (front back : List Byte) (word : BitVec 64) :
    wordAt front.length (front ++ (leBytes 8 word.toNat ++ back)) = word := by
  rw [wordAt, List.drop_left]
  have htake : (leBytes 8 word.toNat ++ back).take 8 = leBytes 8 word.toNat := by
    rw [List.take_append_of_le_length (by simp), List.take_of_length_le (by simp)]
  rw [htake, leBytes_toNat_roundtrip]

/-- A message survives the wire: decoding its image gives it back. -/
@[simp] theorem ofImage_image (message : VpTransferData) :
    VpTransferData.ofImage message.image = message := by
  rcases message with ⟨type, length, addr, data⟩
  have htype := wordAt_append [] (leBytes 8 length.toNat ++
    (leBytes 8 addr.toNat ++ leBytes 8 data.toNat)) type
  have hlength := wordAt_append (leBytes 8 type.toNat)
    (leBytes 8 addr.toNat ++ leBytes 8 data.toNat) length
  have haddr := wordAt_append (leBytes 8 type.toNat ++ leBytes 8 length.toNat)
    (leBytes 8 data.toNat) addr
  have hdata := wordAt_append (leBytes 8 type.toNat ++ (leBytes 8 length.toNat ++
    leBytes 8 addr.toNat)) [] data
  simp only [List.nil_append, List.append_nil, List.append_assoc, List.length_append,
    List.length_nil, length_leBytes] at htype hlength haddr hdata
  simp only [VpTransferData.ofImage, VpTransferData.image]
  rw [htype, hlength, haddr, hdata]

/-- The object representation is all there is to a message: 32 bytes in the place of a
message are the image of the message they make. -/
theorem image_ofImage {bytes : List Byte} (hlength : bytes.length = sizeofTransferData) :
    (VpTransferData.ofImage bytes).image = bytes := by
  unfold sizeofTransferData at hlength
  have hword : ∀ offset, offset + 8 ≤ 32 →
      leBytes 8 (wordAt offset bytes).toNat = (bytes.drop offset).take 8 := by
    intro offset hoffset
    have hchunk : ((bytes.drop offset).take 8).length = 8 := by
      rw [List.length_take, List.length_drop]
      omega
    have hround := leBytes_ofNat_leValue _ hchunk.le
    rw [hchunk] at hround
    exact hround
  have hlast : (bytes.drop 24).take 8 = bytes.drop 24 :=
    List.take_of_length_le (by rw [List.length_drop]; omega)
  have hchunks : ∀ offset, (bytes.drop offset).take 8 ++ bytes.drop (offset + 8) =
      bytes.drop offset := by
    intro offset
    rw [← List.drop_drop, List.take_append_drop]
  show leBytes 8 (wordAt 0 bytes).toNat ++ (leBytes 8 (wordAt 8 bytes).toNat ++
    (leBytes 8 (wordAt 16 bytes).toNat ++ leBytes 8 (wordAt 24 bytes).toNat)) = bytes
  rw [hword 0 (by omega), hword 8 (by omega), hword 16 (by omega), hword 24 (by omega), hlast,
    hchunks 16, hchunks 8, hchunks 0, List.drop_zero]

/-- Different messages have different images. -/
theorem image_injective : Function.Injective VpTransferData.image := by
  intro left right h
  rw [← ofImage_image left, h, ofImage_image]

end Vpipc
end AislabVP
