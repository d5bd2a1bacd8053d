import AislabVP.Board.Layout
import AislabVP.Foundation.NodePaths
import AislabVP.Foundation.Runs
import Mathlib.Data.List.TakeWhile

/-!
# The options of the interrupt architecture

The setters of the machine properties `aia` and `aia-guests`.  `aislab_set_aia` compares its
string with the three names and stores a type only after a match.  `aislab_set_aia_guests`
stores what `atoi` makes of its string and validates it afterwards, so that a refused number
stays in the machine, although an error is reported.

Any sequence of writes keeps the number of guests valid, and every refused write changes
nothing, if and only if no number out of range is ever written
(`guardedRun_soundWrite_iff`).  What the getters return restores the options
(`savedWrites_restore`).
-/

namespace AislabVP
namespace Board

open Foundation

/-! ## `atoi` -/

/-- `isspace`. -/
def isspace (c : Char) : Bool := c == ' ' || ('\t' ≤ c && c ≤ '\r')

/-- The value of the decimal digits at the beginning of a string. -/
def digitsValue (digits : List Char) : Nat :=
  (digits.takeWhile Char.isDigit).foldl (fun value digit => 10 * value + (digit.toNat - '0'.toNat)) 0

/-- `LONG_MAX`. -/
def longMax : Int := 2 ^ 63 - 1

/-- `strtol` with base 10. -/
def strtol (nptr : String) : Int :=
  match nptr.toList.dropWhile isspace with
  | '-' :: digits => max (-longMax - 1) (-digitsValue digits)
  | '+' :: digits => min longMax (digitsValue digits)
  | digits => min longMax (digitsValue digits)

/-- `atoi`: the `long` of `strtol`, narrowed. -/
def atoi (nptr : String) : BitVec 32 := BitVec.ofInt 32 (strtol nptr)

/-! ## The properties -/

/-- The fields of `RISCVAislabState` that the two setters write. -/
structure AiaOptions where
  aiaType : AIAType
  aiaGuests : BitVec 32
  deriving DecidableEq, Repr

/-- What `error_setg` and `error_append_hint` leave in `errp`. -/
structure PropertyError where
  message : String
  hint : String
  deriving DecidableEq, Repr

/-- `aislab_set_aia_guests`. -/
def aislabSetAiaGuests (s : AiaOptions) (val : String) : AiaOptions × Option PropertyError :=
  let s := { s with aiaGuests := atoi val }
  -- The bound is an unsigned constant, and converts the number.
  if s.aiaGuests.slt 0 ∨ s.aiaGuests > BitVec.ofNat 32 aislabIrqchipMaxGuests then
    (s, some
      { message := "Invalid number of AIA IMSIC guests"
        hint := "Valid values be between 0 and " ++ toString aislabIrqchipMaxGuests ++ ".\n" })
  else (s, none)

/-- `aislab_set_aia`. -/
def aislabSetAia (s : AiaOptions) (val : String) : AiaOptions × Option PropertyError :=
  if val = "none" then ({ s with aiaType := .none }, none)
  else if val = "aplic" then ({ s with aiaType := .aplic }, none)
  else if val = "aplic-imsic" then ({ s with aiaType := .aplicImsic }, none)
  else
    (s, some
      { message := "Invalid AIA interrupt controller type"
        hint := "Valid values are none, aplic, and aplic-imsic.\n" })

/-- A write to one of the two properties. -/
inductive PropertyWrite where
  | aia (val : String)
  | aiaGuests (val : String)

/-- The setter that a write calls. -/
def setProperty (s : AiaOptions) : PropertyWrite → AiaOptions × Option PropertyError
  | .aia val => aislabSetAia s val
  | .aiaGuests val => aislabSetAiaGuests s val

/-- A write is a step, whether or not it reports an error. -/
def writeStep (s : AiaOptions) (write : PropertyWrite) : Option AiaOptions :=
  some (setProperty s write).1

/-! ## What the writes should keep -/

/-- `guest_bits` of `aislab_create_aia` and `create_fdt_imsic`. -/
def guestBits (s : AiaOptions) : Nat := aislabImsicNumBits (s.aiaGuests + 1).toNat

/-- `AISLAB_IRQCHIP_MAX_GUESTS_BITS`. -/
def aislabIrqchipMaxGuestsBits : Nat := 3

/-- The number of guests is one that the setter may accept. -/
def ValidGuests (s : AiaOptions) : Prop :=
  0 ≤ s.aiaGuests.toInt ∧ s.aiaGuests.toInt ≤ aislabIrqchipMaxGuests

instance (s : AiaOptions) : Decidable (ValidGuests s) :=
  inferInstanceAs (Decidable (_ ∧ _))

/-- A refused write changes nothing.  The number of guests after any write is valid, and the
IMSICs of a socket with as many harts as a board may have fit their group. -/
structure SoundWrite (s : AiaOptions) (write : PropertyWrite) : Prop where
  refused : (setProperty s write).2 ≠ none → (setProperty s write).1 = s
  valid : ValidGuests (setProperty s write).1
  bits : guestBits (setProperty s write).1 ≤ aislabIrqchipMaxGuestsBits
  fits : ∀ hartCount ≤ aislabCpusMax,
    hartCount * imsicHartSize (guestBits (setProperty s write).1) ≤ aislabImsicGroupMaxSize

/-- The string of a write to `aia-guests` is a number of guests that is in range. -/
def GuestsInRange : PropertyWrite → Prop
  | .aia _ => True
  | .aiaGuests val => 0 ≤ (atoi val).toInt ∧ (atoi val).toInt ≤ aislabIrqchipMaxGuests

/-! ## One write -/

variable {s : AiaOptions}

/-- The check of the setter, with its signed and its unsigned comparison, is right. -/
theorem guests_check_iff (guests : BitVec 32) :
    (guests.slt 0 ∨ guests > BitVec.ofNat 32 aislabIrqchipMaxGuests) ↔
      ¬(0 ≤ guests.toInt ∧ guests.toInt ≤ aislabIrqchipMaxGuests) := by
  have hmax : aislabIrqchipMaxGuests = 7 := rfl
  have hguests := guests.isLt
  have hzero : (0 : BitVec 32).toInt = 0 := rfl
  rw [hmax, BitVec.slt_iff_toInt_lt, hzero, gt_iff_lt, BitVec.lt_def,
    BitVec.toInt_eq_toNat_cond]
  simp only [BitVec.toNat_ofNat]
  split <;> omega

theorem guestBits_le (hvalid : ValidGuests s) : guestBits s ≤ aislabIrqchipMaxGuestsBits := by
  have hmax : aislabIrqchipMaxGuests = 7 := rfl
  obtain ⟨hlow, hhigh⟩ := hvalid
  have hcount : (s.aiaGuests + 1).toNat ≤ 8 := by
    have hguests := s.aiaGuests.isLt
    rw [hmax, BitVec.toInt_eq_toNat_cond] at hhigh
    rw [BitVec.toInt_eq_toNat_cond] at hlow
    rw [BitVec.toNat_add]
    have hone : (1 : BitVec 32).toNat = 1 := rfl
    split at hlow <;> omega
  exact aislabImsicNumBits_le (show (s.aiaGuests + 1).toNat ≤ 2 ^ 3 from hcount)

/-- Few enough guests have few enough pages. -/
theorem group_fits (hbits : guestBits s ≤ aislabIrqchipMaxGuestsBits) (hartCount : Nat)
    (hharts : hartCount ≤ aislabCpusMax) :
    hartCount * imsicHartSize (guestBits s) ≤ aislabImsicGroupMaxSize := by
  have hpower : 2 ^ guestBits s ≤ 2 ^ 3 := Nat.pow_le_pow_right (by omega) hbits
  calc hartCount * imsicHartSize (guestBits s)
      ≤ aislabCpusMax * (2 ^ 3 * imsicMmioPageSize) :=
        Nat.mul_le_mul hharts (Nat.mul_le_mul_right _ hpower)
    _ ≤ aislabImsicGroupMaxSize := by decide

theorem aislabSetAiaGuests_state (s : AiaOptions) (val : String) :
    (aislabSetAiaGuests s val).1 = { s with aiaGuests := atoi val } := by
  unfold aislabSetAiaGuests
  simp only
  split <;> rfl

/-- A refused type is not stored, and no type is a number of guests. -/
theorem aislabSetAia_spec (s : AiaOptions) (val : String) :
    ((aislabSetAia s val).2 ≠ none → (aislabSetAia s val).1 = s) ∧
      (aislabSetAia s val).1.aiaGuests = s.aiaGuests := by
  unfold aislabSetAia
  split
  · exact ⟨fun herror => absurd rfl herror, rfl⟩
  · split
    · exact ⟨fun herror => absurd rfl herror, rfl⟩
    · split
      · exact ⟨fun herror => absurd rfl herror, rfl⟩
      · exact ⟨fun _ => rfl, rfl⟩

/-- The write of a type is sound, whatever the string. -/
theorem soundWrite_aia (hvalid : ValidGuests s) (val : String) : SoundWrite s (.aia val) := by
  obtain ⟨hrefused, hguests⟩ := aislabSetAia_spec s val
  have hafter : ValidGuests (setProperty s (.aia val)).1 := by
    rw [ValidGuests, show (setProperty s (.aia val)).1.aiaGuests = s.aiaGuests from hguests]
    exact hvalid
  exact ⟨hrefused, hafter, guestBits_le hafter, group_fits (guestBits_le hafter)⟩

/-- The write of a number is sound if the number is in range, and only then. -/
theorem soundWrite_aiaGuests_iff (s : AiaOptions) (val : String) :
    SoundWrite s (.aiaGuests val) ↔ GuestsInRange (.aiaGuests val) := by
  have hstate : (setProperty s (.aiaGuests val)).1 = { s with aiaGuests := atoi val } :=
    aislabSetAiaGuests_state s val
  constructor
  · intro hsound
    have hvalid := hsound.valid
    rw [hstate] at hvalid
    exact hvalid
  · intro hrange
    have hafter : ValidGuests (setProperty s (.aiaGuests val)).1 := by
      rw [hstate]
      exact hrange
    have haccepted : (setProperty s (.aiaGuests val)).2 = none := by
      have hcheck : ¬((atoi val).slt 0 ∨ atoi val > BitVec.ofNat 32 aislabIrqchipMaxGuests) :=
        fun hbad => (guests_check_iff (atoi val)).mp hbad hrange
      show (aislabSetAiaGuests s val).2 = none
      unfold aislabSetAiaGuests
      simp only
      rw [if_neg hcheck]
    exact ⟨fun herror => absurd haccepted herror, hafter, guestBits_le hafter,
      group_fits (guestBits_le hafter)⟩

/-! ## Sequences of writes -/

/-- From a valid number of guests, every write of a sequence is sound if and only if every
number written to `aia-guests` is in range. -/
theorem guardedRun_soundWrite_iff (hvalid : ValidGuests s) (writes : List PropertyWrite) :
    GuardedRun writeStep SoundWrite s writes ↔ ∀ write ∈ writes, GuestsInRange write := by
  have hexact : ∀ s write, ValidGuests s → (SoundWrite s write ↔ GuestsInRange write) := by
    intro s write hvalid
    cases write with
    | aia val => exact iff_of_true (soundWrite_aia hvalid val) trivial
    | aiaGuests val => exact soundWrite_aiaGuests_iff s val
  exact guardedRun_iff_forall_mem hexact (fun _ _ _ hsound => hsound.valid) hvalid writes

/-- The options a machine begins with. -/
def defaultOptions : AiaOptions where
  aiaType := .none
  aiaGuests := 0

/-- Writes that are accepted or change nothing. -/
theorem guardedRun_default :
    ValidGuests defaultOptions ∧
      GuardedRun writeStep SoundWrite defaultOptions
        [.aia "aplic-imsic", .aiaGuests " +7 guests", .aia "plic"] :=
  ⟨by decide, (guardedRun_soundWrite_iff (by decide) _).mpr (by
    simp only [List.forall_mem_cons, GuestsInRange]
    exact ⟨trivial, by decide, trivial, nofun⟩)⟩

/-- Nine guests are refused, and are there afterwards: the IMSIC of a hart takes 16 pages,
and those of 512 harts do not fit. -/
theorem refused_guests_are_stored :
    setProperty defaultOptions (.aiaGuests "9") =
        ({ aiaType := .none, aiaGuests := 9 },
          some { message := "Invalid number of AIA IMSIC guests",
                 hint := "Valid values be between 0 and 7.\n" }) ∧
      guestBits (setProperty defaultOptions (.aiaGuests "9")).1 = 4 ∧
      aislabImsicGroupMaxSize <
        512 * imsicHartSize (guestBits (setProperty defaultOptions (.aiaGuests "9")).1) ∧
      ¬GuardedRun writeStep SoundWrite defaultOptions [.aiaGuests "9"] := by
  refine ⟨by decide, by decide, by decide, fun hrun => ?_⟩
  have hvalid := hrun.1.valid
  exact absurd hvalid (by decide)

/-! ## Reading the options back -/

/-- `aislab_get_aia_guests`. -/
def aislabGetAiaGuests (s : AiaOptions) : String := toString s.aiaGuests.toInt

/-- The length of the buffer that `aislab_get_aia_guests` prints into. -/
def aiaGuestsBuffer : Nat := 32

/-- `aislab_get_aia`. -/
def aislabGetAia (s : AiaOptions) : String :=
  match s.aiaType with
  | .aplic => "aplic"
  | .aplicImsic => "aplic-imsic"
  | .none => "none"

/-- The writes of what the getters return. -/
def savedWrites (s : AiaOptions) : List PropertyWrite :=
  [.aia (aislabGetAia s), .aiaGuests (aislabGetAiaGuests s)]

/-- The write reports no error. -/
def Accepted (s : AiaOptions) (write : PropertyWrite) : Prop := (setProperty s write).2 = none

section Saved

theorem digitsValue_toDigits (number : Nat) : digitsValue (Nat.toDigits 10 number) = number := by
  have hdigits : (Nat.toDigits 10 number).takeWhile Char.isDigit = Nat.toDigits 10 number := by
    rw [List.takeWhile_eq_self_iff]
    intro digit hmem
    exact Nat.isDigit_of_mem_toDigits (by decide) (Nat.le_refl 10) hmem
  rw [digitsValue, hdigits]
  exact Nat.ofDigitChars_ten_toDigits

/-- A digit is no space and no sign. -/
theorem isDigit_spec {c : Char} (hdigit : c.isDigit = true) :
    isspace c = false ∧ c ≠ '-' ∧ c ≠ '+' := by
  have hlow : 48 ≤ c.toNat := by
    simp only [Char.isDigit, ge_iff_le, Bool.and_eq_true, decide_eq_true_eq] at hdigit
    exact UInt32.le_iff_toNat_le.mp hdigit.1
  have hhigh : ¬c ≤ '\r' := fun hle => by
    have hbelow : c.toNat ≤ 13 := UInt32.le_iff_toNat_le.mp hle
    omega
  have hother : ∀ other : Char, other.toNat < 48 → c ≠ other := by
    rintro other hless rfl
    omega
  refine ⟨?_, hother _ (by decide), hother _ (by decide)⟩
  simp [isspace, hhigh, hother ' ' (by decide)]

/-- `strtol` of digits. -/
theorem strtol_natText {number : Nat} (hfits : number ≤ longMax) :
    strtol (toString number) = number := by
  obtain ⟨digit, rest, hdigit, htext⟩ := digits_toString number
  obtain ⟨hspace, hminus, hplus⟩ := isDigit_spec hdigit
  have hvalue : digitsValue (digit :: rest) = number := by
    rw [← htext, Nat.toString_eq_repr, Nat.toList_repr, digitsValue_toDigits]
  rw [strtol, htext, List.dropWhile_cons, hspace]
  simp only [Bool.false_eq_true, if_false]
  split
  · exact absurd (List.cons.inj ‹_›).1 hminus
  · exact absurd (List.cons.inj ‹_›).1 hplus
  · rw [hvalue]
    omega

/-- `strtol` reads what `%d` prints. -/
theorem strtol_intText {number : Int} (hlow : -longMax - 1 ≤ number) (hhigh : number ≤ longMax) :
    strtol (toString number) = number := by
  rw [Int.toString_eq_repr, Int.repr_eq_if]
  split
  · rw [← Nat.toString_eq_repr, strtol_natText (by omega)]
    omega
  · have htext : ("-" ++ (-number).toNat.repr).toList = '-' :: Nat.toDigits 10 (-number).toNat := by
      rw [String.toList_append, Nat.toList_repr]
      rfl
    have hminus : isspace '-' = false := by decide
    rw [strtol, htext, List.dropWhile_cons, hminus]
    simp only [Bool.false_eq_true, if_false, digitsValue_toDigits]
    omega

theorem atoi_getAiaGuests (s : AiaOptions) : atoi (aislabGetAiaGuests s) = s.aiaGuests := by
  have hlow := s.aiaGuests.le_toInt
  have hhigh := s.aiaGuests.toInt_lt
  have hmax : longMax = 2 ^ 63 - 1 := rfl
  rw [atoi, aislabGetAiaGuests, strtol_intText (by omega) (by omega), BitVec.ofInt_toInt]

/-- The printed number fits the buffer. -/
theorem length_aislabGetAiaGuests (s : AiaOptions) :
    (aislabGetAiaGuests s).length < aiaGuestsBuffer := by
  have hlow := s.aiaGuests.le_toInt
  have hhigh := s.aiaGuests.toInt_lt
  have hdigits : ∀ number : Nat, number < 10 ^ 10 → number.repr.length ≤ 10 :=
    fun number hnumber => (Nat.length_repr_le_iff (by decide)).mpr hnumber
  rw [aislabGetAiaGuests, aiaGuestsBuffer, Int.toString_eq_repr, Int.repr_eq_if]
  split
  · have hlength := hdigits s.aiaGuests.toInt.toNat (by omega)
    omega
  · have hlength := hdigits (-s.aiaGuests.toInt).toNat (by omega)
    have hminus : "-".length = 1 := rfl
    rw [String.length_append]
    omega

theorem setProperty_getAia (s other : AiaOptions) :
    setProperty other (.aia (aislabGetAia s)) = ({ other with aiaType := s.aiaType }, none) := by
  rw [setProperty, aislabGetAia, aislabSetAia]
  cases s.aiaType with
  | none => rfl
  | aplic => rfl
  | aplicImsic => rfl

theorem setProperty_getAiaGuests (s other : AiaOptions) :
    (setProperty other (.aiaGuests (aislabGetAiaGuests s))).1 =
        { other with aiaGuests := s.aiaGuests } ∧
      ((setProperty other (.aiaGuests (aislabGetAiaGuests s))).2 = none ↔ ValidGuests s) := by
  have hstate := aislabSetAiaGuests_state other (aislabGetAiaGuests s)
  rw [atoi_getAiaGuests] at hstate
  refine ⟨hstate, ?_⟩
  simp only [setProperty, aislabSetAiaGuests, atoi_getAiaGuests, guests_check_iff, ValidGuests]
  by_cases hvalid : 0 ≤ s.aiaGuests.toInt ∧ s.aiaGuests.toInt ≤ aislabIrqchipMaxGuests
  · rw [if_neg (not_not.mpr hvalid)]
    exact iff_of_true rfl hvalid
  · rw [if_pos hvalid]
    exact iff_of_false (by simp) hvalid

/-- What the getters return restores the options on any machine, in both orders, and it fits the
buffer.  The number of guests is stored also where it is out of range, and then the write of
what was read is refused in either order. -/
theorem savedWrites_restore (s other : AiaOptions) :
    runFrom writeStep other (savedWrites s) = some s ∧
      runFrom writeStep other (savedWrites s).reverse = some s ∧
      (GuardedRun writeStep Accepted other (savedWrites s) ↔ ValidGuests s) ∧
      (GuardedRun writeStep Accepted other (savedWrites s).reverse ↔ ValidGuests s) ∧
      (aislabGetAiaGuests s).length < aiaGuestsBuffer := by
  obtain ⟨hguests, hfirst⟩ := setProperty_getAiaGuests s other
  obtain ⟨hafter, hsecond⟩ := setProperty_getAiaGuests s { other with aiaType := s.aiaType }
  refine ⟨?_, ?_, ?_, ?_, length_aislabGetAiaGuests s⟩
  · simp [savedWrites, runFrom, writeStep, setProperty_getAia, hafter]
  · simp [savedWrites, runFrom, writeStep, setProperty_getAia, hguests]
  · simp [savedWrites, GuardedRun, writeStep, Accepted, setProperty_getAia, hsecond]
  · simp [savedWrites, GuardedRun, writeStep, Accepted, setProperty_getAia, hfirst]

end Saved

end Board
end AislabVP
