import AislabVP.Board.MemMap
import AislabVP.Qemu.MmioBus

/-!
# No two ranges of the board overlap

The devices of the sockets are banks, with one instance for every socket; their zones,
for as many sockets as the board can have, are apart from each other and from all other
entries of the map, whatever the interrupt controller.  All of them are below the RAM, and
only the RAM and the high PCIe window remain to be compared.

On a 64-bit machine the window begins behind the RAM.  On a 32-bit machine it is at a fixed
address, and the limit that the function puts on the RAM size does not reach the region it
maps: the map is sound if and only if the machine is a 64-bit one or was started with at
most 10 GiB (`mapSound_iff`).
-/

namespace AislabVP
namespace Board

open Foundation AddressRange

/-- The entry of `mmio_bus` is the window that the device's messages speak about. -/
theorem contains_mmioBus_iff (cell : Nat) :
    (aislabMemmap .mmioBus).Contains cell ↔ Qemu.InWindow cell := Iff.rfl

/-! ## Banks of devices -/

/-- A bank with one range for every index. -/
def singleBank (base stride : Nat) (place : Nat → AddressRange)
    (hplace : ∀ index, (place index).Inside { base := base + index * stride, size := stride }) :
    Bank where
  base := base
  stride := stride
  instances := fun index => [place index]
  inWindow := by
    intro index range hrange
    rw [List.mem_singleton.mp hrange]
    exact hplace index
  apart := fun _ => List.pairwise_singleton _ _

/-- The SiFive CLINT, or MSWI and MTIMER. -/
def clintBank : Bank where
  base := (aislabMemmap .clint).base
  stride := (aislabMemmap .clint).size
  instances := createClint
  inWindow := by
    intro index range hrange
    have hswi : riscvAclintSwiSize = 0x4000 := rfl
    have hmtimer : riscvAclintDefaultMtimerSize = 0x8000 := rfl
    have hstride : (aislabMemmap .clint).size = 0x10000 := rfl
    simp only [createClint, List.mem_cons, List.not_mem_nil, or_false] at hrange
    rcases hrange with rfl | rfl
    · refine inside_of_le (Nat.le_refl _) ?_
      simp only [stop, riscvAclintSwiCreate]
      omega
    · refine inside_of_le (Nat.le_add_right _ _) ?_
      simp only [stop, riscvAclintMtimerCreate]
      omega
  apart := fun index =>
    List.pairwise_pair.mpr (apart_of_le (Nat.le_refl _))

/-- The MTIMERs of the mode without software interrupts. -/
def mtimerBank : Bank :=
  singleBank (aislabMemmap .clint).base riscvAclintDefaultMtimerSize
    (fun socket => riscvAclintMtimerCreate
      ((aislabMemmap .clint).base + socket * riscvAclintDefaultMtimerSize))
    fun _ => inside_of_le (Nat.le_refl _) (Nat.le_refl _)

/-- The SSWIs. -/
def sswiBank : Bank :=
  singleBank (aislabMemmap .aclintSswi).base (aislabMemmap .aclintSswi).size
    (fun socket => riscvAclintSwiCreate
      ((aislabMemmap .aclintSswi).base + socket * (aislabMemmap .aclintSswi).size))
    fun _ => inside_of_le (Nat.le_refl _) (Nat.le_refl _)

/-- The PLICs. -/
def plicBank : Bank :=
  singleBank (aislabMemmap .plic).base (aislabMemmap .plic).size aislabCreatePlic
    fun _ => inside_of_le (Nat.le_refl _) (Nat.le_refl _)

/-- The APLICs of a level. -/
def aplicBank (entry : MemMapEntry) : Bank :=
  singleBank entry.base entry.size (riscvAplicCreate entry)
    fun _ => inside_of_le (Nat.le_refl _) (Nat.le_refl _)

/-! ## The IMSICs -/

/-- The harts of a socket of the board. -/
def hartsOf (s : AislabState) (socket : Nat) : Nat :=
  if socket < s.socketCount then (s.hartCount socket).toNat else 0

/-- No socket has more harts than the board may have. -/
theorem hartsOf_le (s : AislabState) (socket : Nat) : hartsOf s socket ≤ 512 := by
  unfold hartsOf
  split
  · rename_i hsocket
    have hmem : (s.hartCount socket).toNat ∈
        (List.range s.socketCount).map fun socket => (s.hartCount socket).toNat :=
      List.mem_map.mpr ⟨socket, List.mem_range.mpr hsocket, rfl⟩
    exact Nat.le_trans (List.le_sum_of_mem hmem) s.harts_le
  · exact Nat.zero_le _

/-- IMSICs at a stride that holds one each. -/
theorem createImsics_pairwise {base stride numPages hartCount : Nat}
    (hpages : numPages * imsicMmioPageSize ≤ stride) :
    (createImsics base stride numPages hartCount).Pairwise Apart := by
  unfold createImsics
  rw [List.pairwise_map]
  refine List.pairwise_lt_range.imp fun {hart later} hless => apart_of_le ?_
  have hnext : (hart + 1) * stride ≤ later * stride := Nat.mul_le_mul_right _ hless
  rw [Nat.succ_mul] at hnext
  show base + hart * stride + numPages * imsicMmioPageSize ≤ base + later * stride
  omega

/-- The IMSICs of a socket stay inside its group. -/
theorem createImsics_inside {base stride numPages hartCount size : Nat}
    (hpages : numPages * imsicMmioPageSize ≤ stride) (hgroup : hartCount * stride ≤ size)
    {range : AddressRange} (hrange : range ∈ createImsics base stride numPages hartCount) :
    range.Inside { base := base, size := size } := by
  rcases List.mem_map.mp hrange with ⟨hart, hhart, rfl⟩
  have hnext : (hart + 1) * stride ≤ hartCount * stride :=
    Nat.mul_le_mul_right _ (List.mem_range.mp hhart)
  rw [Nat.succ_mul] at hnext
  apply inside_of_le
  · exact Nat.le_add_right _ _
  · show base + hart * stride + numPages * imsicMmioPageSize ≤ base + size
    omega

/-- IMSICs of all harts, with one group for each socket. -/
def imsicBank (s : AislabState) (base stride numPages : Nat)
    (hpages : numPages * imsicMmioPageSize ≤ stride)
    (hgroup : 512 * stride ≤ aislabImsicGroupMaxSize) : Bank where
  base := base
  stride := aislabImsicGroupMaxSize
  instances := fun socket =>
    createImsics (base + socket * aislabImsicGroupMaxSize) stride numPages (hartsOf s socket)
  inWindow := fun socket _ hrange =>
    createImsics_inside hpages
      (Nat.le_trans (Nat.mul_le_mul_right _ (hartsOf_le s socket)) hgroup) hrange
  apart := fun _ => createImsics_pairwise hpages

/-- The pages of a hart's IMSIC at S level fit the stride that `aislab_imsic_num_bits`
gives, and 512 of them fit a group. -/
theorem imsicHartSize_spec (s : AislabState) :
    (1 + s.aiaGuests) * imsicMmioPageSize ≤
        imsicHartSize (aislabImsicNumBits (s.aiaGuests + 1)) ∧
      512 * imsicHartSize (aislabImsicNumBits (s.aiaGuests + 1)) ≤ aislabImsicGroupMaxSize := by
  have henough := (aislabImsicNumBits_spec (s.aiaGuests + 1)).1
  have hguests : s.aiaGuests ≤ 7 := s.guests_le
  have hbits : aislabImsicNumBits (s.aiaGuests + 1) ≤ 3 :=
    aislabImsicNumBits_le (show s.aiaGuests + 1 ≤ 2 ^ 3 by omega)
  have hpower : 2 ^ aislabImsicNumBits (s.aiaGuests + 1) ≤ 2 ^ 3 :=
    Nat.pow_le_pow_right (by omega) hbits
  have hgroup : aislabImsicGroupMaxSize = 0x1000000 := rfl
  unfold imsicHartSize imsicMmioPageSize
  constructor
  · exact Nat.mul_le_mul_right _ (by omega)
  · omega

/-- The IMSICs at M level. -/
def imsicMBank (s : AislabState) : Bank :=
  imsicBank s (aislabMemmap .imsicM).base (imsicHartSize 0) 1 (by decide) (by decide)

/-- The IMSICs at S level. -/
def imsicSBank (s : AislabState) : Bank :=
  imsicBank s (aislabMemmap .imsicS).base (imsicHartSize (aislabImsicNumBits (s.aiaGuests + 1)))
    (1 + s.aiaGuests) (imsicHartSize_spec s).1 (imsicHartSize_spec s).2

/-! ## The sockets -/

/-- The banks of timers and software interrupts. -/
def timerBanks (haveAclint : Bool) (aiaType : AIAType) : List Bank :=
  if haveAclint then
    match aiaType with
    | .aplicImsic => [mtimerBank]
    | .none | .aplic => [clintBank, sswiBank]
  else [clintBank]

/-- The banks of interrupt controllers. -/
def irqchipBanks (s : AislabState) : List Bank :=
  match s.aiaType with
  | .none => [plicBank]
  | .aplic => [aplicBank (aislabMemmap .aplicM), aplicBank (aislabMemmap .aplicS)]
  | .aplicImsic =>
      [imsicMBank s, imsicSBank s, aplicBank (aislabMemmap .aplicM),
        aplicBank (aislabMemmap .aplicS)]

/-- All banks of the sockets. -/
def banks (s : AislabState) : List Bank := timerBanks s.haveAclint s.aiaType ++ irqchipBanks s

/-- A turn of the loop over the sockets maps one instance of each bank. -/
theorem socketRanges_eq (s : AislabState) {socket : Nat} (hsocket : socket < s.socketCount) :
    socketRanges s socket = instancesAt (banks s) socket := by
  have hharts : hartsOf s socket = (s.hartCount socket).toNat := if_pos hsocket
  have htimers : createTimers s socket =
      instancesAt (timerBanks s.haveAclint s.aiaType) socket := by
    unfold createTimers timerBanks
    cases s.haveAclint with
    | false => exact (List.append_nil _).symm
    | true =>
        cases s.aiaType with
        | aplicImsic => rfl
        | none => rfl
        | aplic => rfl
  have hirqchip : createIrqchip s socket = instancesAt (irqchipBanks s) socket := by
    unfold createIrqchip irqchipBanks
    cases s.aiaType with
    | none => rfl
    | aplic =>
        simp only [reduceCtorEq, if_false, aislabCreateAia, List.nil_append]
        rfl
    | aplicImsic =>
        simp only [reduceCtorEq, if_false, aislabCreateAia, if_true, createImsicLevels, ← hharts,
          List.append_assoc]
        rfl
  rw [socketRanges, htimers, hirqchip, banks, instancesAt, instancesAt, instancesAt,
    List.flatMap_append]

/-- The zones of the banks. -/
def socketZones (haveAclint : Bool) (aiaType : AIAType) : List AddressRange :=
  (if haveAclint ∧ aiaType = .aplicImsic then
      [{ base := (aislabMemmap .clint).base,
         size := aislabSocketsMax * riscvAclintDefaultMtimerSize }]
    else if haveAclint then
      [{ base := (aislabMemmap .clint).base,
         size := aislabSocketsMax * (aislabMemmap .clint).size },
        { base := (aislabMemmap .aclintSswi).base,
          size := aislabSocketsMax * (aislabMemmap .aclintSswi).size }]
    else
      [{ base := (aislabMemmap .clint).base,
         size := aislabSocketsMax * (aislabMemmap .clint).size }]) ++
  (if aiaType = .aplicImsic then
      [{ base := (aislabMemmap .imsicM).base, size := aislabImsicMaxSize },
        { base := (aislabMemmap .imsicS).base, size := aislabImsicMaxSize }]
    else []) ++
  (if aiaType = .none then
      [{ base := (aislabMemmap .plic).base,
         size := aislabSocketsMax * (aislabMemmap .plic).size }]
    else
      [{ base := (aislabMemmap .aplicM).base,
         size := aislabSocketsMax * (aislabMemmap .aplicM).size },
        { base := (aislabMemmap .aplicS).base,
          size := aislabSocketsMax * (aislabMemmap .aplicS).size }])

theorem map_zone_banks (s : AislabState) :
    (banks s).map (fun bank => bank.zone aislabSocketsMax) =
      socketZones s.haveAclint s.aiaType := by
  unfold banks timerBanks irqchipBanks socketZones
  cases s.haveAclint with
  | false => cases s.aiaType <;> rfl
  | true => cases s.aiaType <;> rfl

/-- All ranges and zones whose places do not depend on the RAM size. -/
def fixedRanges : List AddressRange := rangesBeforeHighPcie ++ rangesAfterHighPcie

theorem zones_pairwise (haveAclint : Bool) (aiaType : AIAType) :
    (socketZones haveAclint aiaType ++ fixedRanges).Pairwise Apart := by
  cases haveAclint with
  | false => cases aiaType <;> decide
  | true => cases aiaType <;> decide

/-- They are below the RAM. -/
theorem zones_below_ram (haveAclint : Bool) (aiaType : AIAType) :
    ∀ range ∈ socketZones haveAclint aiaType ++ fixedRanges,
      range.stop ≤ (aislabMemmap .dram).base := by
  cases haveAclint with
  | false => cases aiaType <;> decide
  | true => cases aiaType <;> decide

/-! ## The whole map -/

section Map

variable {s : AislabState} {mapped : MachineMap}

/-- The map without the RAM and the high PCIe window. -/
def lowRanges (s : AislabState) : List AddressRange :=
  (List.range s.socketCount).flatMap (instancesAt (banks s)) ++ fixedRanges

/-- Every range of the map but these two is a fixed one or in the zone of a bank. -/
theorem mem_lowRanges (hsockets : s.socketCount ≤ aislabSocketsMax) {range : AddressRange}
    (hrange : range ∈ lowRanges s) :
    ∃ outer ∈ socketZones s.haveAclint s.aiaType ++ fixedRanges, range.Inside outer := by
  rcases List.mem_append.mp hrange with hinstance | hfixed
  · rcases List.mem_flatMap.mp hinstance with ⟨socket, hsocket, hmem⟩
    obtain ⟨bank, hbank, hinside⟩ := instancesAt_inside_zone
      (Nat.lt_of_lt_of_le (List.mem_range.mp hsocket) hsockets) hmem
    refine ⟨bank.zone aislabSocketsMax, List.mem_append_left _ ?_, hinside⟩
    rw [← map_zone_banks]
    exact List.mem_map.mpr ⟨bank, hbank, rfl⟩
  · exact ⟨range, List.mem_append_right _ hfixed, fun _ hcell => hcell⟩

theorem lowRanges_pairwise (hsockets : s.socketCount ≤ aislabSocketsMax) :
    (lowRanges s).Pairwise Apart := by
  have hall := zones_pairwise s.haveAclint s.aiaType
  rw [List.pairwise_append] at hall
  obtain ⟨hzones, hfixed, hcross⟩ := hall
  rw [← map_zone_banks, List.pairwise_map] at hzones
  have hlimit : ∀ socket ∈ List.range s.socketCount, socket < aislabSocketsMax :=
    fun socket hsocket => Nat.lt_of_lt_of_le (List.mem_range.mp hsocket) hsockets
  rw [lowRanges, List.pairwise_append]
  refine ⟨pairwise_apart_instances hzones List.pairwise_lt_range hlimit, hfixed, ?_⟩
  intro range hrange fixed hmem
  rcases List.mem_flatMap.mp hrange with ⟨socket, hsocket, hinstance⟩
  obtain ⟨bank, hbank, hinside⟩ := instancesAt_inside_zone (hlimit socket hsocket) hinstance
  have hzone : bank.zone aislabSocketsMax ∈ socketZones s.haveAclint s.aiaType := by
    rw [← map_zone_banks]
    exact List.mem_map.mpr ⟨bank, hbank, rfl⟩
  exact (hcross _ hzone fixed hmem).mono hinside fun _ hcell => hcell

/-- A range that begins behind the base of the RAM is apart from them. -/
theorem apart_lowRanges (hsockets : s.socketCount ≤ aislabSocketsMax) {high : AddressRange}
    (hhigh : (aislabMemmap .dram).base ≤ high.base) :
    ∀ range ∈ lowRanges s, high.Apart range := by
  intro range hrange
  obtain ⟨outer, houter, hinside⟩ := mem_lowRanges hsockets hrange
  have hbelow := zones_below_ram s.haveAclint s.aiaType outer houter
  exact ((apart_of_le (Nat.le_trans hbelow hhigh)).mono hinside fun _ hcell => hcell).symm

/-- The order in which the ranges are mapped does not matter. -/
theorem ranges_perm (hinit : aislabMachineInit s = .ok mapped) :
    mapped.ranges.Perm (mapRam s :: highPcieMemmap s :: lowRanges s) := by
  obtain ⟨-, -, hranges⟩ := aislabMachineInit_eq_ok hinit
  have hsockets : (List.range s.socketCount).flatMap (socketRanges s) =
      (List.range s.socketCount).flatMap (instancesAt (banks s)) := by
    rw [List.flatMap_def, List.flatMap_def]
    exact congrArg List.flatten (List.map_congr_left fun socket hsocket =>
      socketRanges_eq s (List.mem_range.mp hsocket))
  rw [hranges, hsockets]
  refine List.perm_middle.trans (List.Perm.cons _ ?_)
  rw [← List.append_assoc]
  refine List.perm_middle.trans (List.Perm.cons _ ?_)
  rw [List.append_assoc]
  exact List.Perm.refl _

/-! ## RAM and the high PCIe window -/

/-- `ROUND_UP` when nothing wraps around. -/
theorem roundUp_spec {value unit : Nat} (hunit : 0 < unit) (hfits : value + unit ≤ hwaddrRange) :
    value ≤ roundUp value unit ∧ roundUp value unit < value + unit ∧
      roundUp value unit % unit = 0 := by
  have hexact : roundUp value unit = (value + unit - 1) / unit * unit := by
    rw [roundUp, Nat.mod_eq_of_lt (by omega)]
  have hdiv := Nat.div_add_mod (value + unit - 1) unit
  have hmod := Nat.mod_lt (value + unit - 1) hunit
  rw [Nat.mul_comm] at hdiv
  rw [hexact]
  exact ⟨by omega, by omega, Nat.mul_mod_left _ _⟩

/-- The high PCIe window of a 64-bit machine begins behind the RAM, at a multiple of its
size, and ends inside the address space. -/
theorem highPcieMemmap_64 (h64 : s.is32bit = false)
    (hram : (aislabMemmap .dram).base + s.ramSize + 32 * giB ≤ hwaddrRange) :
    (mapRam s).stop ≤ (highPcieMemmap s).base ∧
      (highPcieMemmap s).base % (highPcieMemmap s).size = 0 ∧
      (highPcieMemmap s).stop ≤ hwaddrRange := by
  have hsize : aislab64HighPcieMmioSize = 16 * giB := rfl
  have hgiB : giB = 0x40000000 := rfl
  have hlimited : limitedRamSize s = s.ramSize := by
    simp [limitedRamSize, h64]
  have hbase : (aislabMemmap .dram).base + limitedRamSize s < hwaddrRange := by
    rw [hlimited]
    omega
  have hhigh : highPcieMemmap s =
      { base := roundUp ((aislabMemmap .dram).base + s.ramSize) aislab64HighPcieMmioSize
        size := aislab64HighPcieMmioSize } := by
    rw [highPcieMemmap, if_neg (by rw [h64]; exact Bool.false_ne_true), Nat.mod_eq_of_lt hbase,
      hlimited]
  obtain ⟨hlow, habove, haligned⟩ := roundUp_spec
    (show 0 < aislab64HighPcieMmioSize by decide)
    (show (aislabMemmap .dram).base + s.ramSize + aislab64HighPcieMmioSize ≤ hwaddrRange by omega)
  rw [hhigh]
  refine ⟨hlow, haligned, ?_⟩
  show roundUp ((aislabMemmap .dram).base + s.ramSize) aislab64HighPcieMmioSize +
    aislab64HighPcieMmioSize ≤ hwaddrRange
  omega

/-- On a 32-bit machine the RAM reaches the window as soon as there are more than 10 GiB. -/
theorem highPcieMemmap_32 (h32 : s.is32bit = true) :
    (mapRam s).Apart (highPcieMemmap s) ↔ s.ramSize ≤ 10 * giB := by
  have hhigh : highPcieMemmap s = aislab32HighPcieMmio := if_pos h32
  have hgiB : giB = 0x40000000 := rfl
  rw [hhigh, apart_iff]
  simp only [stop, mapRam, aislabMemmap, aislab32HighPcieMmio, hgiB]
  omega

/-! ## The result -/

/-- No two ranges of the map share an address, and on a 64-bit machine the high PCIe
window is aligned to its size. -/
structure MapSound (s : AislabState) (mapped : MachineMap) : Prop where
  apart : mapped.ranges.Pairwise Apart
  aligned : s.is32bit = false → mapped.highPcie.base % mapped.highPcie.size = 0

/-- The address map of an accepted machine is sound if and only if the machine is a
64-bit one or was started with at most 10 GiB of RAM. -/
theorem mapSound_iff (s : AislabState) (mapped : MachineMap)
    (hinit : aislabMachineInit s = .ok mapped)
    (hram : (aislabMemmap .dram).base + s.ramSize + 32 * giB ≤ 2 ^ 64) :
    MapSound s mapped ↔ s.is32bit = false ∨ s.ramSize ≤ 10 * giB := by
  obtain ⟨hsockets, hhighPcie, -⟩ := aislabMachineInit_eq_ok hinit
  have hlow := lowRanges_pairwise hsockets
  have hramLow := apart_lowRanges hsockets (Nat.le_refl (mapRam s).base)
  have hiff : mapped.ranges.Pairwise Apart ↔ (mapRam s).Apart (highPcieMemmap s) ∧
      ∀ range ∈ lowRanges s, (highPcieMemmap s).Apart range := by
    rw [(ranges_perm hinit).pairwise_iff Apart.symm, List.pairwise_cons, List.pairwise_cons,
      List.forall_mem_cons]
    exact ⟨fun h => ⟨h.1.1, h.2.1⟩, fun h => ⟨⟨h.1, hramLow⟩, h.2, hlow⟩⟩
  cases hbits : s.is32bit with
  | false =>
      obtain ⟨hbehind, haligned, -⟩ := highPcieMemmap_64 hbits hram
      have hbase : (aislabMemmap .dram).base ≤ (highPcieMemmap s).base :=
        Nat.le_trans (Nat.le_add_right _ _) hbehind
      refine iff_of_true ⟨hiff.mpr ⟨apart_of_le hbehind, apart_lowRanges hsockets hbase⟩, ?_⟩
        (Or.inl rfl)
      intro _
      rw [hhighPcie]
      exact haligned
  | true =>
      have hhigh : highPcieMemmap s = aislab32HighPcieMmio := if_pos hbits
      have hbase : (aislabMemmap .dram).base ≤ (highPcieMemmap s).base := by
        rw [hhigh]
        decide
      rw [← highPcieMemmap_32 hbits]
      constructor
      · intro hsound
        exact Or.inr (hiff.mp hsound.apart).1
      · rintro (h64 | hapart)
        · cases h64
        · exact ⟨hiff.mpr ⟨hapart, apart_lowRanges hsockets hbase⟩,
            fun h64 => by rw [hbits] at h64; cases h64⟩

end Map

/-! ## Two machines -/

/-- A machine with the given word size and RAM: two sockets of four harts, IMSICs with
three guests. -/
def twoSocketBoard (is32bit : Bool) (ramSize : Nat) : AislabState where
  haveAclint := true
  aiaType := .aplicImsic
  aiaGuests := 3
  is32bit := is32bit
  ramSize := ramSize
  socketCount := 2
  checkHartids := fun _ => true
  firstHartid := fun socket => 4 * socket
  hartCount := fun _ => 4
  guests_le := by decide
  harts_le := by decide

/-- With 64 GiB on a 64-bit machine. -/
theorem mapSound_64_gib : ∃ mapped, aislabMachineInit (twoSocketBoard false (64 * giB)) =
    .ok mapped ∧ MapSound (twoSocketBoard false (64 * giB)) mapped :=
  ⟨_, rfl, (mapSound_iff (twoSocketBoard false (64 * giB)) _ rfl (by decide)).mpr (Or.inl rfl)⟩

/-- A 32-bit machine that is started with 11 GiB reports 10 GiB, and the first address of
the high PCIe window is also one of the RAM. -/
theorem ram_overlaps_high_pcie :
    ∃ mapped, aislabMachineInit (twoSocketBoard true (11 * giB)) = .ok mapped ∧
      mapped.ramSize = 10 * giB ∧
      (mapRam (twoSocketBoard true (11 * giB))).Contains mapped.highPcie.base ∧
      mapped.highPcie.Contains mapped.highPcie.base ∧
      ¬MapSound (twoSocketBoard true (11 * giB)) mapped := by
  refine ⟨_, rfl, by decide, ⟨by decide, by decide⟩, ⟨by decide, by decide⟩, fun hsound => ?_⟩
  have hperm := ranges_perm
    (show aislabMachineInit (twoSocketBoard true (11 * giB)) = .ok _ from rfl)
  have hpairwise := (hperm.pairwise_iff Apart.symm).mp hsound.apart
  have hapart := (List.pairwise_cons.mp hpairwise).1 _ List.mem_cons_self
  exact absurd ((highPcieMemmap_32 rfl).mp hapart) (by decide)

end Board
end AislabVP
