import AislabVP.Foundation.Ranges
import Mathlib.Algebra.GroupWithZero.Nat
import Mathlib.Algebra.Order.BigOperators.Group.List
import Mathlib.Algebra.Order.Group.Nat

/-!
# The address map of the board

`aislab_machine_init` under TCG, as far as it decides what is mapped where.  The ranges
come from the table `aislab_memmap`, from loops over the sockets and their harts, and
from the RAM size; the function ends the process when the topology is not one that it
supports.

`riscv_socket_count` and the other topology functions of QEMU are fields of the state, as
is the size of `machine->ram`, which QEMU allocates with the requested RAM size before the
function runs.  A `hwaddr` is kept as a natural number; where the RAM size enters, its
arithmetic is that of 64 bits.
-/

namespace AislabVP
namespace Board

open Foundation

/-! ## `aislab.h` -/

/-- `AISLAB_CPUS_MAX`. -/
def aislabCpusMax : Nat := 1 <<< 9

/-- `AISLAB_SOCKETS_MAX`. -/
def aislabSocketsMax : Nat := 1 <<< 2

/-- `AISLAB_IRQCHIP_MAX_GUESTS`. -/
def aislabIrqchipMaxGuests : Nat := (1 <<< 3) - 1

/-- `AISLAB_PLIC_SIZE`. -/
def aislabPlicSize (numContext : Nat) : Nat := 0x200000 + numContext * 0x1000

/-- `AISLAB_IMSIC_GROUP_MAX_SIZE`, with QEMU's `IMSIC_MMIO_GROUP_MIN_SHIFT`. -/
def aislabImsicGroupMaxSize : Nat := 1 <<< 24

/-- `AISLAB_IMSIC_MAX_SIZE`. -/
def aislabImsicMaxSize : Nat := aislabSocketsMax * aislabImsicGroupMaxSize

/-- `RISCVAislabAIAType`. -/
inductive AIAType where
  | none
  | aplic
  | aplicImsic
  deriving DecidableEq, Repr

/-! ## Sizes that QEMU fixes -/

/-- `GiB`. -/
def giB : Nat := 1 <<< 30

/-- The numbers of a `hwaddr`. -/
def hwaddrRange : Nat := 1 <<< 64

/-- `ROUND_UP`. -/
def roundUp (value unit : Nat) : Nat := (value + unit - 1) % hwaddrRange / unit * unit

/-- `APLIC_SIZE`. -/
def aplicSize (numHarts : Nat) : Nat := roundUp (0x4000 + 32 * numHarts) 0x4000

/-- `IMSIC_MMIO_PAGE_SZ`. -/
def imsicMmioPageSize : Nat := 0x1000

/-- `IMSIC_HART_SIZE`. -/
def imsicHartSize (guestBits : Nat) : Nat := 2 ^ guestBits * imsicMmioPageSize

/-- `RISCV_ACLINT_SWI_SIZE`. -/
def riscvAclintSwiSize : Nat := 0x4000

/-- `RISCV_ACLINT_DEFAULT_MTIMER_SIZE`. -/
def riscvAclintDefaultMtimerSize : Nat := 0x8000

/-! ## `aislab_memmap` -/

/-- `MemMapEntry`. -/
abbrev MemMapEntry := AddressRange

/-- The indices of `aislab_memmap`. -/
inductive MemMapIndex where
  | debug
  | mrom
  | test
  | rtc
  | clint
  | aclintSswi
  | plic
  | aplicM
  | aplicS
  | uart0
  | virtio
  | fwCfg
  | imsicM
  | imsicS
  | flash
  | dram
  | pcieMmio
  | pciePio
  | platformBus
  | pcieEcam
  | mmioBus
  deriving DecidableEq, Repr

/-- `aislab_memmap`. -/
def aislabMemmap : MemMapIndex → MemMapEntry
  | .debug => { base := 0x0, size := 0x100 }
  | .mrom => { base := 0x1000, size := 0xf000 }
  | .test => { base := 0x100000, size := 0x1000 }
  | .rtc => { base := 0x101000, size := 0x1000 }
  | .clint => { base := 0x2000000, size := 0x10000 }
  | .aclintSswi => { base := 0x2F00000, size := 0x4000 }
  | .pciePio => { base := 0x3000000, size := 0x10000 }
  | .platformBus => { base := 0x4000000, size := 0x2000000 }
  | .mmioBus => { base := 0x6000000, size := 0x6000000 }
  | .plic => { base := 0xc000000, size := aislabPlicSize (aislabCpusMax * 2) }
  | .aplicM => { base := 0xc000000, size := aplicSize aislabCpusMax }
  | .aplicS => { base := 0xd000000, size := aplicSize aislabCpusMax }
  | .uart0 => { base := 0x10000000, size := 0x100 }
  | .virtio => { base := 0x10001000, size := 0x1000 }
  | .fwCfg => { base := 0x10100000, size := 0x18 }
  | .flash => { base := 0x20000000, size := 0x4000000 }
  | .imsicM => { base := 0x24000000, size := aislabImsicMaxSize }
  | .imsicS => { base := 0x28000000, size := aislabImsicMaxSize }
  | .pcieEcam => { base := 0x30000000, size := 0x10000000 }
  | .pcieMmio => { base := 0x40000000, size := 0x40000000 }
  | .dram => { base := 0x80000000, size := 0x0 }

/-- `AISLAB32_HIGH_PCIE_MMIO_BASE` and `AISLAB32_HIGH_PCIE_MMIO_SIZE`. -/
def aislab32HighPcieMmio : MemMapEntry where
  base := 0x300000000
  size := 4 * giB

/-- `AISLAB64_HIGH_PCIE_MMIO_SIZE`. -/
def aislab64HighPcieMmioSize : Nat := 16 * giB

/-! ## The machine -/

/-- What `aislab_machine_init` reads: the properties of the machine, the RAM size it was
started with, and the topology functions of QEMU at each socket.  The setter of
`aia-guests` refuses more guests, and `max_cpus` more harts. -/
structure AislabState where
  haveAclint : Bool
  aiaType : AIAType
  aiaGuests : Nat
  is32bit : Bool
  ramSize : Nat
  socketCount : Nat
  checkHartids : Nat → Bool
  firstHartid : Nat → Int
  hartCount : Nat → Int
  guests_le : aiaGuests ≤ aislabIrqchipMaxGuests
  harts_le : ((List.range socketCount).map fun socket => (hartCount socket).toNat).sum ≤
    aislabCpusMax

/-! ## The devices of a socket -/

/-- `riscv_aclint_swi_create` at an address. -/
def riscvAclintSwiCreate (addr : Nat) : AddressRange where
  base := addr
  size := riscvAclintSwiSize

/-- `riscv_aclint_mtimer_create` at an address. -/
def riscvAclintMtimerCreate (addr : Nat) : AddressRange where
  base := addr
  size := riscvAclintDefaultMtimerSize

/-- `riscv_imsic_create` at an address, with a number of pages. -/
def riscvImsicCreate (addr numPages : Nat) : AddressRange where
  base := addr
  size := numPages * imsicMmioPageSize

/-- MSWI and MTIMER of a socket, which the SiFive CLINT has in the same places. -/
def createClint (socket : Nat) : List AddressRange :=
  let addr := (aislabMemmap .clint).base + socket * (aislabMemmap .clint).size
  [riscvAclintSwiCreate addr, riscvAclintMtimerCreate (addr + riscvAclintSwiSize)]

/-- The timers and software interrupts of a socket.  Under TCG `aislab_aclint_allowed`
holds. -/
def createTimers (s : AislabState) (socket : Nat) : List AddressRange :=
  if s.haveAclint then
    match s.aiaType with
    | .aplicImsic =>
        [riscvAclintMtimerCreate
          ((aislabMemmap .clint).base + socket * riscvAclintDefaultMtimerSize)]
    | .none | .aplic =>
        createClint socket ++
          [riscvAclintSwiCreate
            ((aislabMemmap .aclintSswi).base + socket * (aislabMemmap .aclintSswi).size)]
  else createClint socket

/-- `aislab_create_plic`. -/
def aislabCreatePlic (socket : Nat) : AddressRange where
  base := (aislabMemmap .plic).base + socket * (aislabMemmap .plic).size
  size := (aislabMemmap .plic).size

/-- The loop of `aislab_imsic_num_bits`, from a value of `ret`. -/
def imsicNumBitsFrom (count : Nat) : Nat → Nat → Nat
  | 0, ret => ret
  | fuel + 1, ret => if 2 ^ ret < count then imsicNumBitsFrom count fuel (ret + 1) else ret

/-- `aislab_imsic_num_bits`.  The loop makes fewer than `count` turns. -/
def aislabImsicNumBits (count : Nat) : Nat := imsicNumBitsFrom count count 0

/-- One IMSIC for each hart, at a stride. -/
def createImsics (base stride numPages hartCount : Nat) : List AddressRange :=
  (List.range hartCount).map fun hart => riscvImsicCreate (base + hart * stride) numPages

/-- `riscv_aplic_create` in the entry of the map for a level, at the socket's place. -/
def riscvAplicCreate (entry : MemMapEntry) (socket : Nat) : AddressRange where
  base := entry.base + socket * entry.size
  size := entry.size

/-- The IMSICs of `aislab_create_aia` in MSI mode, at M level and at S level. -/
def createImsicLevels (aiaGuests socket hartCount : Nat) : List AddressRange :=
  let guestBits := aislabImsicNumBits (aiaGuests + 1)
  createImsics ((aislabMemmap .imsicM).base + socket * aislabImsicGroupMaxSize)
      (imsicHartSize 0) 1 hartCount ++
    createImsics ((aislabMemmap .imsicS).base + socket * aislabImsicGroupMaxSize)
      (imsicHartSize guestBits) (1 + aiaGuests) hartCount

/-- `aislab_create_aia`, without KVM. -/
def aislabCreateAia (aiaType : AIAType) (aiaGuests socket hartCount : Nat) :
    List AddressRange :=
  (if aiaType = .aplicImsic then createImsicLevels aiaGuests socket hartCount else []) ++
    [riscvAplicCreate (aislabMemmap .aplicM) socket,
      riscvAplicCreate (aislabMemmap .aplicS) socket]

/-- The interrupt controller of a socket. -/
def createIrqchip (s : AislabState) (socket : Nat) : List AddressRange :=
  if s.aiaType = .none then [aislabCreatePlic socket]
  else aislabCreateAia s.aiaType s.aiaGuests socket (s.hartCount socket).toNat

/-- What one turn of the loop over the sockets maps. -/
def socketRanges (s : AislabState) (socket : Nat) : List AddressRange :=
  createTimers s socket ++ createIrqchip s socket

/-- The loop over the sockets; an error is the message with which the process exits. -/
def initSockets (s : AislabState) : List Nat → Except String (List AddressRange)
  | [] => .ok []
  | socket :: rest =>
      if s.checkHartids socket = false then
        .error ("discontinuous hartids in socket" ++ toString socket)
      else if s.firstHartid socket < 0 then
        .error ("can't find hartid base for socket" ++ toString socket)
      else if s.hartCount socket < 0 then
        .error ("can't find hart count for socket" ++ toString socket)
      else
        match initSockets s rest with
        | .error message => .error message
        | .ok ranges => .ok (socketRanges s socket ++ ranges)

/-! ## The rest of the board -/

/-- The RAM size that the machine reports afterwards. -/
def limitedRamSize (s : AislabState) : Nat :=
  -- "Limiting RAM size to 10 GiB"
  if s.is32bit ∧ s.ramSize > 10 * giB then 10 * giB else s.ramSize

/-- `aislab_high_pcie_memmap`. -/
def highPcieMemmap (s : AislabState) : MemMapEntry :=
  if s.is32bit then aislab32HighPcieMmio
  else
    { base := roundUp (((aislabMemmap .dram).base + limitedRamSize s) % hwaddrRange)
        aislab64HighPcieMmioSize
      size := aislab64HighPcieMmioSize }

/-- `memory_region_add_subregion` of `machine->ram`.  The region is the allocated one,
whatever `machine->ram_size` has become. -/
def mapRam (s : AislabState) : AddressRange where
  base := (aislabMemmap .dram).base
  size := s.ramSize

/-- The eight VirtIO MMIO devices. -/
def createVirtio : List AddressRange :=
  (List.range 8).map fun index =>
    { base := (aislabMemmap .virtio).base + index * (aislabMemmap .virtio).size
      size := (aislabMemmap .virtio).size }

/-- `aislab_flash_map`. -/
def aislabFlashMap : List AddressRange :=
  let flashsize := (aislabMemmap .flash).size / 2
  let flashbase := (aislabMemmap .flash).base
  [{ base := flashbase, size := flashsize }, { base := flashbase + flashsize, size := flashsize }]

/-- What is mapped after the RAM and before the high PCIe window. -/
def rangesBeforeHighPcie : List AddressRange :=
  [aislabMemmap .mrom, aislabMemmap .fwCfg, aislabMemmap .test] ++ createVirtio ++
    [aislabMemmap .pcieEcam, aislabMemmap .pcieMmio]

/-- What is mapped after the high PCIe window. -/
def rangesAfterHighPcie : List AddressRange :=
  [aislabMemmap .pciePio, aislabMemmap .platformBus, aislabMemmap .uart0, aislabMemmap .rtc,
    aislabMemmap .mmioBus] ++ aislabFlashMap

/-- What `aislab_machine_init` leaves behind. -/
structure MachineMap where
  ramSize : Nat
  highPcie : MemMapEntry
  ranges : List AddressRange

/-- `aislab_machine_init`.  Under TCG its check of `aclint` always passes. -/
def aislabMachineInit (s : AislabState) : Except String MachineMap :=
  if aislabSocketsMax < s.socketCount then
    .error ("number of sockets/nodes should be less than " ++ toString aislabSocketsMax)
  else
    match initSockets s (List.range s.socketCount) with
    | .error message => .error message
    | .ok sockets =>
        .ok
          { ramSize := limitedRamSize s
            highPcie := highPcieMemmap s
            ranges := sockets ++ mapRam s :: (rangesBeforeHighPcie ++
              highPcieMemmap s :: rangesAfterHighPcie) }

/-! ## Laws -/

/-- The loop of `aislab_imsic_num_bits` ends at the first power of two that is large
enough. -/
theorem imsicNumBitsFrom_spec (count : Nat) :
    ∀ fuel ret, count ≤ ret + fuel → (ret = 0 ∨ 2 ^ (ret - 1) < count) →
      count ≤ 2 ^ imsicNumBitsFrom count fuel ret ∧
        (imsicNumBitsFrom count fuel ret = 0 ∨
          2 ^ (imsicNumBitsFrom count fuel ret - 1) < count) := by
  intro fuel
  induction fuel with
  | zero =>
      intro ret hfuel hbefore
      have hpower : ret < 2 ^ ret := Nat.lt_two_pow_self
      exact ⟨show count ≤ 2 ^ ret by omega, hbefore⟩
  | succ fuel ih =>
      intro ret hfuel hbefore
      rw [imsicNumBitsFrom]
      by_cases hless : 2 ^ ret < count
      · rw [if_pos hless]
        exact ih (ret + 1) (by omega) (Or.inr hless)
      · rw [if_neg hless]
        exact ⟨Nat.not_lt.mp hless, hbefore⟩

theorem aislabImsicNumBits_spec (count : Nat) :
    count ≤ 2 ^ aislabImsicNumBits count ∧
      (aislabImsicNumBits count = 0 ∨ 2 ^ (aislabImsicNumBits count - 1) < count) :=
  imsicNumBitsFrom_spec count count 0 (by omega) (Or.inl rfl)

/-- When the width below is too small, no smaller width is large enough. -/
theorem width_le {count width other : Nat} (hbefore : width = 0 ∨ 2 ^ (width - 1) < count)
    (hother : count ≤ 2 ^ other) : width ≤ other := by
  rcases hbefore with hzero | hless
  · omega
  · by_contra hsmaller
    have hpower : 2 ^ other ≤ 2 ^ (width - 1) := Nat.pow_le_pow_right (by omega) (by omega)
    omega

theorem aislabImsicNumBits_le {count width : Nat} (hcount : count ≤ 2 ^ width) :
    aislabImsicNumBits count ≤ width :=
  width_le (aislabImsicNumBits_spec count).2 hcount

/-- An accepted loop has mapped what each turn maps. -/
theorem initSockets_eq_ok {s : AislabState} {sockets : List Nat} {ranges : List AddressRange}
    (hinit : initSockets s sockets = .ok ranges) : ranges = sockets.flatMap (socketRanges s) := by
  induction sockets generalizing ranges with
  | nil => exact (Except.ok.inj hinit).symm
  | cons socket rest ih =>
      rw [initSockets] at hinit
      split at hinit
      · cases hinit
      · split at hinit
        · cases hinit
        · split at hinit
          · cases hinit
          · split at hinit
            · cases hinit
            · rename_i others hrest
              rw [List.flatMap_cons, ← ih hrest]
              exact (Except.ok.inj hinit).symm

/-- What an accepted machine looks like. -/
theorem aislabMachineInit_eq_ok {s : AislabState} {mapped : MachineMap}
    (hinit : aislabMachineInit s = .ok mapped) :
    s.socketCount ≤ aislabSocketsMax ∧ mapped.highPcie = highPcieMemmap s ∧
      mapped.ranges = (List.range s.socketCount).flatMap (socketRanges s) ++
        mapRam s :: (rangesBeforeHighPcie ++ highPcieMemmap s :: rangesAfterHighPcie) := by
  rw [aislabMachineInit] at hinit
  split at hinit
  · cases hinit
  · rename_i hsockets
    split at hinit
    · cases hinit
    · rename_i sockets hloop
      obtain rfl := Except.ok.inj hinit
      rw [initSockets_eq_ok hloop]
      exact ⟨Nat.not_lt.mp hsockets, rfl, rfl⟩

end Board
end AislabVP
