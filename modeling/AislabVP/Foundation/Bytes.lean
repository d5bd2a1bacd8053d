import Mathlib.Tactic.Ring
import Mathlib.Tactic.NormNum

/-!
# Little-endian words, byte stores and object buffers

Every value that crosses a process boundary here is a fixed-width little-endian
word, every memory is a function from addresses to bytes, and every `memcpy`
either lays bytes over the front of a buffer or over an address range of a
memory.  This module holds the three notions and the laws by which they
compose:

* `leBytes` / `leValue` are mutually inverse on words of a fixed width, and a
  shorter word is a prefix of a longer one;
* `writeBytes` changes exactly the addressed range and `readBytes` reads it
  back;
* `overlay` replaces the front of a buffer and keeps its tail.
-/

namespace AislabVP
namespace Foundation

/-- One octet. -/
abbrev Byte := BitVec 8

/-! ## Words -/

/-- The `count` low-order bytes of a word, least significant byte first. -/
def leBytes : Nat → Nat → List Byte
  | 0, _ => []
  | count + 1, value => BitVec.ofNat 8 value :: leBytes count (value / 256)

/-- The word whose little-endian bytes are given. -/
def leValue : List Byte → Nat
  | [] => 0
  | byte :: rest => byte.toNat + 256 * leValue rest

@[simp] theorem leBytes_zero (value : Nat) : leBytes 0 value = [] := rfl

@[simp] theorem leValue_nil : leValue [] = 0 := rfl

@[simp] theorem leValue_cons (byte : Byte) (rest : List Byte) :
    leValue (byte :: rest) = byte.toNat + 256 * leValue rest := rfl

@[simp] theorem length_leBytes (count value : Nat) :
    (leBytes count value).length = count := by
  induction count generalizing value with
  | zero => rfl
  | succ count ih => simp [leBytes, ih]

theorem leValue_lt (bytes : List Byte) : leValue bytes < 256 ^ bytes.length := by
  induction bytes with
  | nil => simp
  | cons byte rest ih =>
      have hbyte : byte.toNat < 256 := byte.isLt
      rw [leValue_cons, List.length_cons, pow_succ]
      omega

/-- Decoding the bytes of a word gives the word back, cut to its width. -/
theorem leValue_leBytes (count value : Nat) :
    leValue (leBytes count value) = value % 256 ^ count := by
  induction count generalizing value with
  | zero => simp [Nat.mod_one]
  | succ count ih =>
      have hsplit : value % (256 * 256 ^ count) =
          value % 256 + 256 * (value / 256 % 256 ^ count) := Nat.mod_mul
      rw [leBytes, leValue_cons, ih, BitVec.toNat_ofNat, pow_succ' 256 count, hsplit]

/-- Encoding a decoded word of the same width gives the bytes back. -/
theorem leBytes_leValue (bytes : List Byte) :
    leBytes bytes.length (leValue bytes) = bytes := by
  induction bytes with
  | nil => rfl
  | cons byte rest ih =>
      have hbyte : byte.toNat < 256 := byte.isLt
      have hquotient : (byte.toNat + 256 * leValue rest) / 256 = leValue rest := by
        omega
      have hremainder : BitVec.ofNat 8 (byte.toNat + 256 * leValue rest) = byte := by
        apply BitVec.eq_of_toNat_eq
        rw [BitVec.toNat_ofNat]
        omega
      rw [List.length_cons, leValue_cons, leBytes, hquotient, hremainder, ih]

/-- Words of one width are equal when their values are. -/
theorem eq_of_leValue_eq {left right : List Byte} (hlength : left.length = right.length)
    (hvalue : leValue left = leValue right) : left = right := by
  rw [← leBytes_leValue left, ← leBytes_leValue right, hlength, hvalue]

/-- A narrower word is a prefix of a wider one. -/
theorem take_leBytes (count width value : Nat) (hcount : count ≤ width) :
    (leBytes width value).take count = leBytes count value := by
  induction count generalizing width value with
  | zero => simp
  | succ count ih =>
      obtain ⟨width, rfl⟩ : ∃ rest, width = rest + 1 := ⟨width - 1, by omega⟩
      simp [leBytes, ih width (value / 256) (by omega)]

/-- Cutting a value to a width leaves the bytes below that width alone. -/
theorem leBytes_mod (count width value : Nat) (hcount : count ≤ width) :
    leBytes count (value % 256 ^ width) = leBytes count value := by
  induction count generalizing width value with
  | zero => rfl
  | succ count ih =>
      obtain ⟨width, rfl⟩ : ∃ rest, width = rest + 1 := ⟨width - 1, by omega⟩
      have hlow : BitVec.ofNat 8 (value % 256 ^ (width + 1)) = BitVec.ofNat 8 value := by
        apply BitVec.eq_of_toNat_eq
        rw [BitVec.toNat_ofNat, BitVec.toNat_ofNat, pow_succ']
        exact Nat.mod_mul_right_mod value 256 (256 ^ width)
      have hhigh : value % 256 ^ (width + 1) / 256 = value / 256 % 256 ^ width := by
        rw [pow_succ', Nat.mod_mul_right_div_self]
      rw [leBytes, leBytes, hlow, hhigh, ih width (value / 256) (by omega)]

/-- The bytes of a word above its first ones are those of the shifted value. -/
theorem leBytes_add (low high value : Nat) :
    leBytes (low + high) value = leBytes low value ++ leBytes high (value / 256 ^ low) := by
  induction low generalizing value with
  | zero => simp
  | succ low ih =>
      rw [Nat.add_right_comm, leBytes, leBytes, ih, Nat.div_div_eq_div_mul, ← pow_succ',
        List.cons_append]

theorem leValue_append (front back : List Byte) :
    leValue (front ++ back) = leValue front + 256 ^ front.length * leValue back := by
  induction front with
  | nil => simp
  | cons byte rest ih =>
      rw [List.cons_append, leValue_cons, leValue_cons, ih, List.length_cons, pow_succ]
      ring

/-- Zero bytes above a word do not change its value. -/
theorem leValue_append_zeros (bytes : List Byte) (count : Nat) :
    leValue (bytes ++ List.replicate count 0) = leValue bytes := by
  have hzeros : leValue (List.replicate count (0 : Byte)) = 0 := by
    induction count with
    | zero => rfl
    | succ count ih => rw [List.replicate_succ, leValue_cons, ih]; rfl
  rw [leValue_append, hzeros, Nat.mul_zero, Nat.add_zero]

/-! ## Buffers -/

/-- `memcpy` to the start of an object: the source replaces the front bytes and
the bytes above it stay. -/
def overlay (buffer source : List Byte) : List Byte :=
  source ++ buffer.drop source.length

@[simp] theorem take_overlay (buffer source : List Byte) :
    (overlay buffer source).take source.length = source := by
  simp [overlay]

theorem length_overlay {buffer source : List Byte} (hfits : source.length ≤ buffer.length) :
    (overlay buffer source).length = buffer.length := by
  rw [overlay, List.length_append, List.length_drop]
  omega

/-- Behind the source stands what was in the buffer. -/
theorem drop_overlay (buffer : List Byte) {source : List Byte} {position : Nat}
    (hbehind : source.length ≤ position) :
    (overlay buffer source).drop position = buffer.drop position := by
  have hsum : source.length + (position - source.length) = position := by omega
  rw [overlay, List.drop_append, List.drop_of_length_le hbehind, List.nil_append,
    List.drop_drop, hsum]

/-- A source as long as the buffer leaves nothing of it. -/
theorem overlay_of_length_le {buffer source : List Byte} (hwhole : buffer.length ≤ source.length) :
    overlay buffer source = source := by
  rw [overlay, List.drop_of_length_le hwhole, List.append_nil]

/-- The low bytes of a word whose front was laid over are the bytes laid over
it. -/
theorem leBytes_leValue_overlay (buffer source : List Byte) :
    leBytes source.length (leValue (overlay buffer source)) = source := by
  have hlength : source.length ≤ (overlay buffer source).length := by simp [overlay]
  calc
    leBytes source.length (leValue (overlay buffer source)) =
        (leBytes (overlay buffer source).length
          (leValue (overlay buffer source))).take source.length :=
      (take_leBytes _ _ _ hlength).symm
    _ = source := by rw [leBytes_leValue, take_overlay]

/-! ## Byte stores -/

/-- A memory: the byte at every address. -/
abbrev ByteStore := Nat → Byte

/-- The bytes of the range of length `count` that starts at `addr`. -/
def readBytes (store : ByteStore) (addr count : Nat) : List Byte :=
  (List.range count).map fun index => store (addr + index)

/-- Store `bytes` at `addr` and upwards. -/
def writeBytes (store : ByteStore) (addr : Nat) (bytes : List Byte) : ByteStore :=
  fun cell =>
    if addr ≤ cell ∧ cell < addr + bytes.length then bytes.getD (cell - addr) 0
    else store cell

/-- The memory seen through a window that begins at `base`. -/
def window (base : Nat) (store : ByteStore) : ByteStore :=
  fun cell => store (base + cell)

@[simp] theorem length_readBytes (store : ByteStore) (addr count : Nat) :
    (readBytes store addr count).length = count := by
  simp [readBytes]

theorem getElem_readBytes (store : ByteStore) (addr : Nat) {index count : Nat}
    (hindex : index < (readBytes store addr count).length) :
    (readBytes store addr count)[index] = store (addr + index) := by
  simp [readBytes]

theorem writeBytes_inside (store : ByteStore) (addr : Nat) (bytes : List Byte)
    {index : Nat} (hindex : index < bytes.length) :
    writeBytes store addr bytes (addr + index) = bytes[index] := by
  have hrange : addr ≤ addr + index ∧ addr + index < addr + bytes.length := by omega
  rw [writeBytes, if_pos hrange, Nat.add_sub_cancel_left]
  exact (List.getElem_eq_getD 0).symm

theorem writeBytes_outside (store : ByteStore) (addr : Nat) (bytes : List Byte)
    {cell : Nat} (hcell : ¬(addr ≤ cell ∧ cell < addr + bytes.length)) :
    writeBytes store addr bytes cell = store cell := by
  rw [writeBytes, if_neg hcell]

/-- Writing nothing changes nothing. -/
theorem writeBytes_nil (store : ByteStore) (addr : Nat) : writeBytes store addr [] = store := by
  ext cell : 1
  exact writeBytes_outside store addr [] (by simp)

/-- Reading back a range that was just written. -/
theorem readBytes_writeBytes (store : ByteStore) (addr : Nat) (bytes : List Byte) :
    readBytes (writeBytes store addr bytes) addr bytes.length = bytes := by
  apply List.ext_getElem
  · simp
  · intro index _ hindex
    rw [getElem_readBytes]
    exact writeBytes_inside store addr bytes hindex

/-- Writing what is there changes nothing. -/
theorem writeBytes_readBytes (store : ByteStore) (addr count : Nat) :
    writeBytes store addr (readBytes store addr count) = store := by
  funext cell
  by_cases hcell : addr ≤ cell ∧ cell < addr + (readBytes store addr count).length
  · obtain ⟨index, rfl⟩ : ∃ index, cell = addr + index := ⟨cell - addr, by omega⟩
    have hindex : index < (readBytes store addr count).length := by omega
    rw [writeBytes_inside _ _ _ hindex, getElem_readBytes _ _ hindex]
  · exact writeBytes_outside _ _ _ hcell

/-- Writing bytes changes nothing exactly when they are there. -/
theorem writeBytes_eq_self_iff (store : ByteStore) (addr : Nat) (bytes : List Byte) :
    store = writeBytes store addr bytes ↔ bytes = readBytes store addr bytes.length := by
  constructor
  · intro hsame
    have hback := readBytes_writeBytes store addr bytes
    rw [← hsame] at hback
    exact hback.symm
  · intro hbytes
    rw [hbytes, writeBytes_readBytes]

theorem readBytes_add (store : ByteStore) (addr low high : Nat) :
    readBytes store addr (low + high) =
      readBytes store addr low ++ readBytes store (addr + low) high := by
  simp [readBytes, List.range_add, Nat.add_assoc]

/-- Two writes side by side are one. -/
theorem writeBytes_append (store : ByteStore) (addr : Nat) (front back : List Byte) :
    writeBytes store addr (front ++ back) =
      writeBytes (writeBytes store addr front) (addr + front.length) back := by
  funext cell
  by_cases hback : addr + front.length ≤ cell ∧ cell < addr + front.length + back.length
  · obtain ⟨index, rfl⟩ : ∃ index, cell = addr + front.length + index :=
      ⟨cell - (addr + front.length), by omega⟩
    have hindex : index < back.length := by omega
    rw [writeBytes_inside _ _ _ hindex, Nat.add_assoc,
      writeBytes_inside _ _ _ (by rw [List.length_append]; omega),
      List.getElem_append_right (Nat.le_add_right _ _)]
    simp only [Nat.add_sub_cancel_left]
  · rw [writeBytes_outside _ _ _ hback]
    by_cases hfront : addr ≤ cell ∧ cell < addr + front.length
    · obtain ⟨index, rfl⟩ : ∃ index, cell = addr + index := ⟨cell - addr, by omega⟩
      have hindex : index < front.length := by omega
      rw [writeBytes_inside _ _ _ hindex,
        writeBytes_inside _ _ _ (by rw [List.length_append]; omega),
        List.getElem_append_left hindex]
    · rw [writeBytes_outside _ _ _ hfront, writeBytes_outside]
      rw [List.length_append]
      omega

theorem readBytes_window (base : Nat) (store : ByteStore) (addr count : Nat) :
    readBytes (window base store) addr count = readBytes store (base + addr) count := by
  simp [readBytes, window, Nat.add_assoc]

/-- A write inside a window is a write of the store seen through it. -/
theorem window_writeBytes (base : Nat) (store : ByteStore) (addr : Nat)
    (bytes : List Byte) :
    window base (writeBytes store (base + addr) bytes) =
      writeBytes (window base store) addr bytes := by
  funext cell
  by_cases hcell : addr ≤ cell ∧ cell < addr + bytes.length
  · obtain ⟨index, rfl⟩ : ∃ index, cell = addr + index := ⟨cell - addr, by omega⟩
    have hindex : index < bytes.length := by omega
    rw [writeBytes_inside _ _ _ hindex, window, ← Nat.add_assoc,
      writeBytes_inside _ _ _ hindex]
  · rw [writeBytes_outside _ _ _ hcell, window, window, writeBytes_outside]
    omega

/-! ## Parts of a store -/

/-- The stores have the same bytes in a region. -/
def AgreeOn (region : Nat → Prop) (store other : ByteStore) : Prop :=
  ∀ cell, region cell → store cell = other cell

/-- The range is in the region. -/
def RangeIn (region : Nat → Prop) (addr count : Nat) : Prop :=
  ∀ cell, addr ≤ cell → cell < addr + count → region cell

section AgreeOn

variable {region : Nat → Prop} {store other : ByteStore} {addr : Nat}

theorem AgreeOn.readBytes (hagree : AgreeOn region store other) {count : Nat}
    (hrange : RangeIn region addr count) :
    readBytes store addr count = readBytes other addr count := by
  refine List.map_congr_left fun index hindex => hagree _ (hrange _ (by omega) ?_)
  have hless := List.mem_range.mp hindex
  omega

/-- The same write to both. -/
theorem AgreeOn.writeBytes (hagree : AgreeOn region store other) (bytes : List Byte) :
    AgreeOn region (writeBytes store addr bytes) (writeBytes other addr bytes) := by
  intro cell hcell
  unfold Foundation.writeBytes
  rw [hagree cell hcell]

/-- A write to one of them, outside of the region. -/
theorem AgreeOn.writeBytes_left (hagree : AgreeOn region store other) {bytes : List Byte}
    (houtside : RangeIn (fun cell => ¬region cell) addr bytes.length) :
    AgreeOn region (Foundation.writeBytes store addr bytes) other := by
  intro cell hcell
  rw [writeBytes_outside]
  · exact hagree cell hcell
  · exact fun hrange => houtside cell hrange.1 hrange.2 hcell

end AgreeOn

/-! ## Rows of words -/

/-- The store after words of one width have been written side by side, the first one at zero. -/
def writeRow (width : Nat) (word : Nat → List Byte) (store : ByteStore) : Nat → ByteStore
  | 0 => store
  | count + 1 => writeBytes (writeRow width word store count) (width * count) (word count)

/-- The later writes leave an earlier word alone. -/
theorem readBytes_writeRow {width : Nat} {word : Nat → List Byte}
    (hwidth : ∀ index, (word index).length = width) (store : ByteStore) {count index : Nat}
    (hindex : index < count) :
    readBytes (writeRow width word store count) (width * index) width = word index := by
  induction count with
  | zero => omega
  | succ count ih =>
      by_cases hlast : index = count
      · subst hlast
        have hback := readBytes_writeBytes (writeRow width word store index) (width * index)
          (word index)
        rw [hwidth] at hback
        exact hback
      · have hbelow : width * index + width ≤ width * count := by
          rw [← Nat.mul_succ]
          exact Nat.mul_le_mul_left width (by omega)
        have hagree : AgreeOn (· < width * count) (writeRow width word store (count + 1))
            (writeRow width word store count) := by
          apply AgreeOn.writeBytes_left (fun _ _ => rfl)
          intro cell hfrom _
          omega
        rw [hagree.readBytes, ih (by omega)]
        intro cell _ hcell
        omega

end Foundation
end AislabVP
