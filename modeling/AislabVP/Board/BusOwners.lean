import AislabVP.Board.ImsicPages

/-!
# The addresses in the device tree

The guest learns from the device tree what is where on the bus: `reg` properties of the
nodes below `/soc`, of the flash, of fw-cfg and of the memory nodes, and the `ranges` of the
PCIe host.  The functions that write them compute the addresses anew, beside
`aislab_machine_init`, which maps the devices.

An owner is whatever an address of the bus can be given to (`BusOwner`).  The tree
gives it the addresses of its cells, and `hardware` lists what `aislab_machine_init`
maps for it.  They differ: the tree gives the MTIMER of a socket all of the rest of the CLINT
entry, the CLINT node has addresses that no device answers, and IMSICs have gaps
between their pages.  But an address that the tree gives to one owner never reaches
another one, and all addresses of a device are in its cells (`treeMatchesBus`).
-/

namespace AislabVP
namespace Board

open Foundation AddressRange

/-! ## Cells -/

/-- `qemu_fdt_setprop_cells`: each value is stored in 32 bits. -/
def setpropCells (values : List Nat) : List (BitVec 32) := values.map (BitVec.ofNat 32)

/-- A value of two cells, as `qemu_fdt_setprop_sized_cells` stores it. -/
def twoCells (value : Nat) : List Nat := [value >>> 32, value]

/-- `reg` below a node with two address and two size cells. -/
def decodeReg : List (BitVec 32) → List AddressRange
  | baseHigh :: baseLow :: sizeHigh :: sizeLow :: rest =>
      { base := baseHigh.toNat <<< 32 + baseLow.toNat
        size := sizeHigh.toNat <<< 32 + sizeLow.toNat } :: decodeReg rest
  | _ => []

/-- The four arguments that most of the functions pass. -/
def regOf (range : AddressRange) : List (BitVec 32) :=
  setpropCells [0x0, range.base, 0x0, range.size]

/-- A range with two cells for each number. -/
def wideRegOf (range : AddressRange) : List (BitVec 32) :=
  setpropCells (twoCells range.base ++ twoCells range.size)

/-! ## What the functions write -/

/-- `RISCV_ACLINT_DEFAULT_MTIMECMP`. -/
def riscvAclintDefaultMtimecmp : Nat := 0x0

/-- `RISCV_ACLINT_DEFAULT_MTIME`. -/
def riscvAclintDefaultMtime : Nat := 0x7ff8

/-- `clint_addr` of `create_fdt_socket_clint`. -/
def clintAddr (socket : Nat) : Nat :=
  (aislabMemmap .clint).base + (aislabMemmap .clint).size * socket

/-- `addr` and `size` of the MTIMER in `create_fdt_socket_aclint`. -/
def mtimerEntry (s : AislabState) (socket : Nat) : AddressRange :=
  if s.aiaType = .aplicImsic then
    { base := (aislabMemmap .clint).base + riscvAclintDefaultMtimerSize * socket
      size := riscvAclintDefaultMtimerSize }
  else
    { base := (aislabMemmap .clint).base + riscvAclintSwiSize +
        (aislabMemmap .clint).size * socket
      size := (aislabMemmap .clint).size - riscvAclintSwiSize }

/-- The `reg` of the MTIMER: `mtime` first, then `mtimecmp`. -/
def mtimerReg (s : AislabState) (socket : Nat) : List (BitVec 32) :=
  let entry := mtimerEntry s socket
  setpropCells
    [0x0, entry.base + riscvAclintDefaultMtime, 0x0, entry.size - riscvAclintDefaultMtime,
      0x0, entry.base + riscvAclintDefaultMtimecmp, 0x0, riscvAclintDefaultMtime]

/-- An entry of the map for each socket. -/
def socketEntry (index : MemMapIndex) (socket : Nat) : AddressRange where
  base := (aislabMemmap index).base + (aislabMemmap index).size * socket
  size := (aislabMemmap index).size

/-- The entry of the map for the APLICs of a level. -/
def aplicEntry : Level → MemMapIndex
  | .m => .aplicM
  | .s => .aplicS

/-- `riscv_socket_mem_offset` and `riscv_socket_mem_size`: the sockets have the RAM that the
machine reports, one after the other. -/
structure SocketMemory (s : AislabState) where
  offset : Nat → Nat
  size : Nat → Nat
  first : offset 0 = 0
  next : ∀ socket, offset (socket + 1) = offset socket + size socket
  total : offset s.socketCount = limitedRamSize s

/-- What a socket has of the RAM. -/
def SocketMemory.range {s : AislabState} (mem : SocketMemory s) (socket : Nat) : AddressRange where
  base := (aislabMemmap .dram).base + mem.offset socket
  size := mem.size socket

/-- `reg` of `create_fdt_socket_memory`. -/
def createFdtSocketMemory {s : AislabState} (mem : SocketMemory s) (socket : Nat) :
    List (BitVec 32) :=
  wideRegOf (mem.range socket)

/-- Whatever an address of the bus can be given to. -/
inductive BusOwner where
  | node (name : NodeName)
  /-- An entry of the `reg` of the flash. -/
  | flash (index : Nat)
  | fwCfg
  /-- An entry of the `ranges` of the PCIe host: I/O, MMIO, and 64-bit MMIO. -/
  | pciIo
  | pciMmio
  | pciMmio64
  /-- The memory nodes. -/
  | memory
  /-- Mapped, and not in the tree: the boot ROM, and the platform bus, the nodes of which QEMU
  writes. -/
  | mrom
  | platformBus
  deriving DecidableEq, Repr

/-- The `reg` of a node. -/
def nodeReg (s : AislabState) : NodeName → List (BitVec 32)
  | .cpu _ _ | .intc _ _ => []
  | .clint socket => regOf { base := clintAddr socket, size := (aislabMemmap .clint).size }
  | .mswi socket => regOf { base := clintAddr socket, size := riscvAclintSwiSize }
  | .mtimer socket => mtimerReg s socket
  | .sswi socket => regOf (socketEntry .aclintSswi socket)
  | .plic socket => regOf (socketEntry .plic socket)
  | .aplic level socket => regOf (socketEntry (aplicEntry level) socket)
  | .imsics .m => imsicRegs s (aislabMemmap .imsicM).base 0
  | .imsics .s => imsicRegs s (aislabMemmap .imsicS).base (aislabImsicNumBits (s.aiaGuests + 1))
  | .virtioMmio index =>
      regOf { base := (aislabMemmap .virtio).base + index * (aislabMemmap .virtio).size
              size := (aislabMemmap .virtio).size }
  | .pci => regOf (aislabMemmap .pcieEcam)
  | .test => regOf (aislabMemmap .test)
  | .serial => regOf (aislabMemmap .uart0)
  | .rtc => regOf (aislabMemmap .rtc)
  | .mmioBus => regOf (aislabMemmap .mmioBus)

/-- The cells that give addresses to an owner. -/
def BusOwner.cells (s : AislabState) (mem : SocketMemory s) : BusOwner → List (BitVec 32)
  | .node name => nodeReg s name
  -- `create_fdt_flash`
  | .flash index =>
      let flashsize := (aislabMemmap .flash).size / 2
      wideRegOf { base := (aislabMemmap .flash).base + index * flashsize, size := flashsize }
  -- `create_fdt_fw_cfg`
  | .fwCfg => wideRegOf (aislabMemmap .fwCfg)
  -- `create_fdt_pcie`, `ranges`
  | .pciIo => wideRegOf (aislabMemmap .pciePio)
  | .pciMmio => wideRegOf (aislabMemmap .pcieMmio)
  | .pciMmio64 => wideRegOf (highPcieMemmap s)
  | .memory => (List.range s.socketCount).flatMap (createFdtSocketMemory mem)
  | .mrom | .platformBus => []

/-- The tree gives an address to an owner. -/
def BusOwner.InTree (s : AislabState) (mem : SocketMemory s) (owner : BusOwner) (cell : Nat) :
    Prop :=
  ∃ range ∈ decodeReg (owner.cells s mem), range.Contains cell

/-! ## What the board maps -/

/-- What the board maps for a node. -/
def nodeHardware (s : AislabState) : NodeName → List AddressRange
  | .cpu _ _ | .intc _ _ => []
  | .clint socket => createClint socket
  | .mswi socket => (createClint socket).take 1
  | .mtimer socket =>
      if s.aiaType = .aplicImsic then
        [riscvAclintMtimerCreate
          ((aislabMemmap .clint).base + socket * riscvAclintDefaultMtimerSize)]
      else (createClint socket).drop 1
  | .sswi socket =>
      [riscvAclintSwiCreate
        ((aislabMemmap .aclintSswi).base + socket * (aislabMemmap .aclintSswi).size)]
  | .plic socket => [aislabCreatePlic socket]
  | .aplic level socket => [riscvAplicCreate (aislabMemmap (aplicEntry level)) socket]
  | .imsics .m =>
      (List.range s.socketCount).flatMap fun socket =>
        createImsics ((aislabMemmap .imsicM).base + socket * aislabImsicGroupMaxSize)
          (imsicHartSize 0) 1 (numHarts s socket)
  | .imsics .s =>
      (List.range s.socketCount).flatMap fun socket =>
        createImsics ((aislabMemmap .imsicS).base + socket * aislabImsicGroupMaxSize)
          (imsicHartSize (aislabImsicNumBits (s.aiaGuests + 1))) (1 + s.aiaGuests)
          (numHarts s socket)
  | .virtioMmio index =>
      [{ base := (aislabMemmap .virtio).base + index * (aislabMemmap .virtio).size
         size := (aislabMemmap .virtio).size }]
  | .pci => [aislabMemmap .pcieEcam]
  | .test => [aislabMemmap .test]
  | .serial => [aislabMemmap .uart0]
  | .rtc => [aislabMemmap .rtc]
  | .mmioBus => [aislabMemmap .mmioBus]

/-- What the board maps for an owner. -/
def BusOwner.hardware (s : AislabState) : BusOwner → List AddressRange
  | .node name => nodeHardware s name
  | .flash index => [{ base := (aislabMemmap .flash).base + index * ((aislabMemmap .flash).size / 2)
                       size := (aislabMemmap .flash).size / 2 }]
  | .fwCfg => [aislabMemmap .fwCfg]
  | .pciIo => [aislabMemmap .pciePio]
  | .pciMmio => [aislabMemmap .pcieMmio]
  | .pciMmio64 => [highPcieMemmap s]
  | .memory => [mapRam s]
  | .mrom => [aislabMemmap .mrom]
  | .platformBus => [aislabMemmap .platformBus]

/-- The owners whose places are the same on every board. -/
def fixedOwners : List BusOwner :=
  [.mrom, .fwCfg, .node .test] ++ (List.range 8).map (fun index => .node (.virtioMmio index)) ++
    [.node .pci, .pciMmio, .pciIo, .platformBus, .node .serial, .node .rtc, .node .mmioBus,
      .flash 0, .flash 1]

/-- The owners of a socket. -/
def socketOwners (s : AislabState) (socket : Nat) : List BusOwner :=
  (timerNodes s .tcg socket ++ irqchipNodes s socket).map .node

/-- All owners below the RAM. -/
def lowOwners (s : AislabState) : List BusOwner :=
  (List.range s.socketCount).flatMap (socketOwners s) ++ (imsicNodes s).map .node ++ fixedOwners

/-- All owners. -/
def busOwners (s : AislabState) : List BusOwner := .memory :: .pciMmio64 :: lowOwners s

/-! ## Decoding -/

/-- The numbers of a range fit the cells. -/
def CellsHold (range : AddressRange) : Prop := range.base < 2 ^ 64 ∧ range.size < 2 ^ 64

/-- Two cells hold 64 bits. -/
theorem twoCells_toNat {value : Nat} (hvalue : value < 2 ^ 64) :
    (BitVec.ofNat 32 (value >>> 32)).toNat <<< 32 + (BitVec.ofNat 32 value).toNat = value := by
  rw [BitVec.toNat_ofNat, BitVec.toNat_ofNat, Nat.shiftRight_eq_div_pow, Nat.shiftLeft_eq]
  omega

/-- Short numbers have zero in the first cell. -/
theorem regOf_eq_wideRegOf {range : AddressRange} (hbase : range.base < 2 ^ 32)
    (hsize : range.size < 2 ^ 32) : regOf range = wideRegOf range := by
  have hhigh : range.base >>> 32 = 0 ∧ range.size >>> 32 = 0 := by
    rw [Nat.shiftRight_eq_div_pow, Nat.shiftRight_eq_div_pow]
    exact ⟨Nat.div_eq_of_lt hbase, Nat.div_eq_of_lt hsize⟩
  simp [regOf, wideRegOf, setpropCells, twoCells, hhigh.1, hhigh.2]

/-- What the guest reads is what the board has written. -/
theorem decodeReg_flatMap {ranges : List AddressRange} (hhold : ∀ range ∈ ranges, CellsHold range) :
    decodeReg (ranges.flatMap wideRegOf) = ranges := by
  induction ranges with
  | nil => rfl
  | cons range rest ih =>
      obtain ⟨hbase, hsize⟩ := hhold range List.mem_cons_self
      have hrest := ih fun other hother => hhold other (List.mem_cons_of_mem _ hother)
      simp only [List.flatMap_cons, wideRegOf, setpropCells, twoCells, List.map_cons, List.map_nil,
        List.cons_append, List.nil_append, decodeReg, twoCells_toNat hbase, twoCells_toNat hsize]
      exact congrArg (List.cons range) hrest

/-! ## Homes -/

/-- The part of the bus in which both the tree and the hardware keep an owner. -/
def BusOwner.home (s : AislabState) : BusOwner → AddressRange
  | .node (.cpu _ _) | .node (.intc _ _) => { base := 0, size := 0 }
  | .node (.clint socket) => { base := clintAddr socket, size := (aislabMemmap .clint).size }
  | .node (.mswi socket) => { base := clintAddr socket, size := riscvAclintSwiSize }
  | .node (.mtimer socket) => mtimerEntry s socket
  | .node (.sswi socket) => socketEntry .aclintSswi socket
  | .node (.plic socket) => socketEntry .plic socket
  | .node (.aplic level socket) => socketEntry (aplicEntry level) socket
  | .node (.imsics level) => { base := (imsicEntry level).base, size := aislabImsicMaxSize }
  | .node (.virtioMmio index) =>
      { base := (aislabMemmap .virtio).base + index * (aislabMemmap .virtio).size
        size := (aislabMemmap .virtio).size }
  | .node .pci => aislabMemmap .pcieEcam
  | .node .test => aislabMemmap .test
  | .node .serial => aislabMemmap .uart0
  | .node .rtc => aislabMemmap .rtc
  | .node .mmioBus => aislabMemmap .mmioBus
  | .flash index =>
      { base := (aislabMemmap .flash).base + index * ((aislabMemmap .flash).size / 2)
        size := (aislabMemmap .flash).size / 2 }
  | .fwCfg => aislabMemmap .fwCfg
  | .pciIo => aislabMemmap .pciePio
  | .pciMmio => aislabMemmap .pcieMmio
  | .pciMmio64 => highPcieMemmap s
  | .memory => mapRam s
  | .mrom => aislabMemmap .mrom
  | .platformBus => aislabMemmap .platformBus

/-- The group of a socket in the `reg` of an IMSIC node. -/
def imsicGroup (s : AislabState) (level : Level) (socket : Nat) : AddressRange where
  base := (imsicEntry level).base + socket * aislabImsicGroupMaxSize
  size := imsicHartSize (imsicGuestBits s level) * numHarts s socket

/-- The ranges that the cells of an owner encode. -/
def BusOwner.treeRanges (s : AislabState) (mem : SocketMemory s) : BusOwner → List AddressRange
  | .node (.cpu _ _) | .node (.intc _ _) | .mrom | .platformBus => []
  | .node (.mtimer socket) =>
      let entry := mtimerEntry s socket
      [{ base := entry.base + riscvAclintDefaultMtime
         size := entry.size - riscvAclintDefaultMtime },
        { base := entry.base + riscvAclintDefaultMtimecmp, size := riscvAclintDefaultMtime }]
  | .node (.imsics level) => (List.range s.socketCount).map (imsicGroup s level)
  | .memory => (List.range s.socketCount).map mem.range
  | owner => [owner.home s]

/-- The tree and the hardware have their places, and the tree has all of the hardware. -/
structure Placed (s : AislabState) (mem : SocketMemory s) (owner : BusOwner) : Prop where
  cells : owner.cells s mem = (owner.treeRanges s mem).flatMap wideRegOf
  hold : ∀ range ∈ owner.treeRanges s mem, CellsHold range
  tree : ∀ range ∈ owner.treeRanges s mem, range.Inside (owner.home s)
  hardware : ∀ range ∈ owner.hardware s, range.Inside (owner.home s)
  covered : owner ≠ .mrom → owner ≠ .platformBus → ∀ range ∈ owner.hardware s, ∀ cell,
    range.Contains cell → ∃ entry ∈ owner.treeRanges s mem, entry.Contains cell

section Placed

variable {s : AislabState} {mem : SocketMemory s} {owner : BusOwner}

theorem Placed.inTree_iff (hplaced : Placed s mem owner) (cell : Nat) :
    owner.InTree s mem cell ↔ ∃ range ∈ owner.treeRanges s mem, range.Contains cell := by
  rw [BusOwner.InTree, hplaced.cells, decodeReg_flatMap hplaced.hold]

theorem Placed.home_of_inTree (hplaced : Placed s mem owner) {cell : Nat}
    (htree : owner.InTree s mem cell) : (owner.home s).Contains cell := by
  obtain ⟨range, hrange, hcell⟩ := (hplaced.inTree_iff cell).mp htree
  exact hplaced.tree range hrange cell hcell

/-- An owner with one entry, its home. -/
theorem placed_of_single (hranges : owner.treeRanges s mem = [owner.home s])
    (hcells : owner.cells s mem = wideRegOf (owner.home s)) (hhold : CellsHold (owner.home s))
    (hhardware : ∀ range ∈ owner.hardware s, range.Inside (owner.home s)) :
    Placed s mem owner where
  cells := by rw [hranges, List.flatMap_singleton, hcells]
  hold := by
    rw [hranges]
    exact fun range hrange => List.mem_singleton.mp hrange ▸ hhold
  tree := by
    rw [hranges]
    exact fun range hrange cell hcell => List.mem_singleton.mp hrange ▸ hcell
  hardware := hhardware
  covered := by
    intro _ _ range hrange cell hcell
    rw [hranges]
    exact ⟨_, List.mem_singleton_self _, hhardware range hrange cell hcell⟩

/-- An owner with one entry of short numbers, written in either way. -/
theorem placed_of_short (hranges : owner.treeRanges s mem = [owner.home s])
    (hcells : owner.cells s mem = regOf (owner.home s) ∨
      owner.cells s mem = wideRegOf (owner.home s))
    (hshort : (owner.home s).base < 2 ^ 32 ∧ (owner.home s).size < 2 ^ 32)
    (hhardware : ∀ range ∈ owner.hardware s, range.Inside (owner.home s)) :
    Placed s mem owner := by
  refine placed_of_single hranges ?_ ⟨by omega, by omega⟩ hhardware
  rcases hcells with hcells | hcells
  · rw [hcells, regOf_eq_wideRegOf hshort.1 hshort.2]
  · exact hcells

/-- The only range of a list. -/
theorem inside_of_mem_singleton {home : AddressRange} :
    ∀ range ∈ [home], range.Inside home := by
  intro range hrange
  rw [List.mem_singleton.mp hrange]
  exact fun _ hcell => hcell

/-- An owner that is mapped and not in the tree. -/
theorem placed_of_unlisted (hranges : owner.treeRanges s mem = []) (hcells : owner.cells s mem = [])
    (hunlisted : owner = .mrom ∨ owner = .platformBus)
    (hhardware : ∀ range ∈ owner.hardware s, range.Inside (owner.home s)) :
    Placed s mem owner where
  cells := by rw [hranges, hcells, List.flatMap_nil]
  hold := by simp [hranges]
  tree := by simp [hranges]
  hardware := hhardware
  covered := by
    intro hmrom hbus
    rcases hunlisted with hsame | hsame
    · exact absurd hsame hmrom
    · exact absurd hsame hbus

variable (s mem)

/-- The fixed owners have the ranges of the map that are fixed. -/
theorem map_home_fixedOwners : fixedOwners.map (BusOwner.home s) = fixedRanges := rfl

theorem placed_fixedOwners : ∀ owner ∈ fixedOwners, Placed s mem owner := by
  have hshort : ∀ range ∈ fixedRanges, range.base < 2 ^ 32 ∧ range.size < 2 ^ 32 := by decide
  suffices hplaced : ∀ owner ∈ fixedOwners,
      (owner.home s).base < 2 ^ 32 ∧ (owner.home s).size < 2 ^ 32 → Placed s mem owner by
    intro owner howner
    refine hplaced owner howner (hshort _ ?_)
    rw [← map_home_fixedOwners s]
    exact List.mem_map_of_mem howner
  have hnode : ∀ name, (BusOwner.node name).treeRanges s mem = [(BusOwner.node name).home s] →
      nodeReg s name = regOf ((BusOwner.node name).home s) →
      nodeHardware s name = [(BusOwner.node name).home s] →
      ((BusOwner.node name).home s).base < 2 ^ 32 ∧ ((BusOwner.node name).home s).size < 2 ^ 32 →
        Placed s mem (.node name) := by
    intro name hranges hcells hhardware hshort
    refine placed_of_short hranges (Or.inl hcells) hshort ?_
    rw [BusOwner.hardware, hhardware]
    exact inside_of_mem_singleton
  simp only [fixedOwners, List.forall_mem_append, List.forall_mem_cons, List.forall_mem_map,
    List.mem_range]
  refine ⟨⟨⟨?_, ?_, hnode _ rfl rfl rfl, nofun⟩, fun index _ => hnode _ rfl rfl rfl⟩,
    hnode _ rfl rfl rfl, ?_, ?_, ?_, hnode _ rfl rfl rfl, hnode _ rfl rfl rfl, hnode _ rfl rfl rfl,
    ?_, ?_, nofun⟩
  · exact fun _ => placed_of_unlisted rfl rfl (Or.inl rfl) inside_of_mem_singleton
  · exact fun hfwCfg => placed_of_short rfl (Or.inr rfl) hfwCfg inside_of_mem_singleton
  · exact fun hmmio => placed_of_short rfl (Or.inr rfl) hmmio inside_of_mem_singleton
  · exact fun hpio => placed_of_short rfl (Or.inr rfl) hpio inside_of_mem_singleton
  · exact fun _ => placed_of_unlisted rfl rfl (Or.inr rfl) inside_of_mem_singleton
  · exact fun hflash => placed_of_short rfl (Or.inr rfl) hflash inside_of_mem_singleton
  · exact fun hflash => placed_of_short rfl (Or.inr rfl) hflash inside_of_mem_singleton

variable {s mem}

/-- An entry of the map that each socket has, with the device in it. -/
theorem placed_of_socketEntry (index : MemMapIndex) {socket : Nat}
    (hsocket : socket < aislabSocketsMax)
    (hentries : (aislabMemmap index).base + 4 * (aislabMemmap index).size < 2 ^ 32)
    (hhome : owner.home s = socketEntry index socket)
    (hranges : owner.treeRanges s mem = [owner.home s])
    (hcells : owner.cells s mem = regOf (socketEntry index socket))
    (hhardware : owner.hardware s =
      [{ base := (aislabMemmap index).base + socket * (aislabMemmap index).size
         size := (aislabMemmap index).size }]) : Placed s mem owner := by
  have hplace : socket * (aislabMemmap index).size ≤ 3 * (aislabMemmap index).size :=
    Nat.mul_le_mul_right _ (Nat.le_of_lt_succ hsocket)
  refine placed_of_short hranges (Or.inl (by rw [hcells, hhome])) ?_ ?_
  · rw [hhome]
    show (aislabMemmap index).base + (aislabMemmap index).size * socket < 2 ^ 32 ∧
      (aislabMemmap index).size < 2 ^ 32
    rw [Nat.mul_comm]
    exact ⟨by omega, by omega⟩
  · rw [hhardware, hhome, socketEntry, Nat.mul_comm]
    exact inside_of_mem_singleton

/-- The MTIMER is at the beginning of its entry. -/
theorem nodeHardware_mtimer (s : AislabState) (socket : Nat) :
    nodeHardware s (.mtimer socket) =
      [{ base := (mtimerEntry s socket).base, size := riscvAclintDefaultMtimerSize }] := by
  rw [nodeHardware, mtimerEntry]
  by_cases himsic : s.aiaType = .aplicImsic
  · rw [if_pos himsic, if_pos himsic, riscvAclintMtimerCreate, Nat.mul_comm]
  · rw [if_neg himsic, if_neg himsic, createClint, List.drop_succ_cons, List.drop_zero,
      riscvAclintMtimerCreate, Nat.mul_comm, Nat.add_right_comm]

theorem mtimerEntry_bounds (s : AislabState) {socket : Nat} (hsocket : socket < aislabSocketsMax) :
    (mtimerEntry s socket).base < 0x2080000 ∧ 0x8000 ≤ (mtimerEntry s socket).size ∧
      (mtimerEntry s socket).size ≤ 0xC000 := by
  have hmax : socket < 4 := hsocket
  have hclint : aislabMemmap .clint = { base := 0x2000000, size := 0x10000 } := rfl
  have hswi : riscvAclintSwiSize = 0x4000 := rfl
  have hmtimer : riscvAclintDefaultMtimerSize = 0x8000 := rfl
  unfold mtimerEntry
  rw [hclint, hswi, hmtimer]
  split
  · simp only
    omega
  · simp only
    omega

/-- The tree describes `mtime` and `mtimecmp`, which share the entry. -/
theorem placed_mtimer {socket : Nat} (hsocket : socket < aislabSocketsMax) :
    Placed s mem (.node (.mtimer socket)) := by
  have hmtime : riscvAclintDefaultMtime = 0x7ff8 := rfl
  have hmtimecmp : riscvAclintDefaultMtimecmp = 0x0 := rfl
  have hmtimer : riscvAclintDefaultMtimerSize = 0x8000 := rfl
  obtain ⟨hbase, hlarge, hsmall⟩ := mtimerEntry_bounds s hsocket
  have hhome : (BusOwner.node (.mtimer socket)).home s = mtimerEntry s socket := rfl
  have hhardware : ∀ range ∈ (BusOwner.node (.mtimer socket)).hardware s,
      range = { base := (mtimerEntry s socket).base, size := riscvAclintDefaultMtimerSize } := by
    rw [BusOwner.hardware, nodeHardware_mtimer]
    exact fun range hrange => List.mem_singleton.mp hrange
  have hranges : ∀ range, range ∈ (BusOwner.node (.mtimer socket)).treeRanges s mem ↔
      range = { base := (mtimerEntry s socket).base + riscvAclintDefaultMtime
                size := (mtimerEntry s socket).size - riscvAclintDefaultMtime } ∨
      range = { base := (mtimerEntry s socket).base + riscvAclintDefaultMtimecmp
                size := riscvAclintDefaultMtime } := by
    simp [BusOwner.treeRanges]
  refine ⟨?_, ?_, ?_, ?_, ?_⟩
  · show mtimerReg s socket = wideRegOf _ ++ (wideRegOf _ ++ [])
    rw [← regOf_eq_wideRegOf (by simp only; omega) (by simp only; omega),
      ← regOf_eq_wideRegOf (by simp only; omega) (by simp only; omega)]
    rfl
  · intro range hrange
    rcases (hranges range).mp hrange with rfl | rfl
    · exact ⟨by simp only; omega, by simp only; omega⟩
    · exact ⟨by simp only; omega, by simp only; omega⟩
  · intro range hrange
    rw [hhome]
    rcases (hranges range).mp hrange with rfl | rfl
    · exact inside_of_le (by simp only; omega) (by simp only [stop]; omega)
    · exact inside_of_le (by simp only; omega) (by simp only [stop]; omega)
  · intro range hrange
    rw [hhome, hhardware range hrange]
    exact inside_of_le (Nat.le_refl _) (by simp only [stop]; omega)
  · intro _ _ range hrange cell hcell
    rw [hhardware range hrange] at hcell
    simp only [Contains, stop] at hcell
    by_cases hlow : cell < (mtimerEntry s socket).base + riscvAclintDefaultMtime
    · refine ⟨_, (hranges _).mpr (Or.inr rfl), ?_⟩
      simp only [Contains, stop]
      omega
    · refine ⟨_, (hranges _).mpr (Or.inl rfl), ?_⟩
      simp only [Contains, stop]
      omega

/-- The SiFive CLINT has both devices, the MSWI node only the first one. -/
theorem placed_clint {socket : Nat} (hsocket : socket < aislabSocketsMax) :
    Placed s mem (.node (.clint socket)) ∧ Placed s mem (.node (.mswi socket)) := by
  have hmax : socket < 4 := hsocket
  have hshort : clintAddr socket < 2 ^ 32 := by
    show 0x2000000 + 0x10000 * socket < 2 ^ 32
    omega
  have hsizes : (aislabMemmap .clint).size < 2 ^ 32 ∧ riscvAclintSwiSize < 2 ^ 32 := by decide
  have hswi : riscvAclintSwiSize = 0x4000 := rfl
  have hmtimer : riscvAclintDefaultMtimerSize = 0x8000 := rfl
  have hsize : (aislabMemmap .clint).size = 0x10000 := rfl
  have hclint : createClint socket = [riscvAclintSwiCreate (clintAddr socket),
      riscvAclintMtimerCreate (clintAddr socket + riscvAclintSwiSize)] := by
    rw [createClint, clintAddr, Nat.mul_comm]
  constructor
  · refine placed_of_short rfl (Or.inl rfl) ⟨hshort, hsizes.1⟩ ?_
    show ∀ range ∈ createClint socket, _
    rw [hclint, List.forall_mem_cons, List.forall_mem_singleton]
    constructor
    · refine inside_of_le (Nat.le_refl _) ?_
      simp only [stop, riscvAclintSwiCreate, BusOwner.home]
      omega
    · refine inside_of_le (Nat.le_add_right _ _) ?_
      simp only [stop, riscvAclintMtimerCreate, BusOwner.home]
      omega
  · refine placed_of_short rfl (Or.inl rfl) ⟨hshort, hsizes.2⟩ ?_
    show ∀ range ∈ (createClint socket).take 1, _
    rw [hclint]
    exact inside_of_mem_singleton

theorem placed_socketOwners {socket : Nat} (hsocket : socket < aislabSocketsMax) :
    ∀ owner ∈ socketOwners s socket, Placed s mem owner := by
  have haplic : ∀ level, Placed s mem (.node (.aplic level socket)) := by
    intro level
    cases level with
    | m => exact placed_of_socketEntry .aplicM hsocket (by decide) rfl rfl rfl rfl
    | s => exact placed_of_socketEntry .aplicS hsocket (by decide) rfl rfl rfl rfl
  have hsswi : Placed s mem (.node (.sswi socket)) :=
    placed_of_socketEntry .aclintSswi hsocket (by decide) rfl rfl rfl rfl
  have hplic : Placed s mem (.node (.plic socket)) :=
    placed_of_socketEntry .plic hsocket (by decide) rfl rfl rfl rfl
  have htimers : ∀ name ∈ timerNodes s .tcg socket, Placed s mem (.node name) := by
    unfold timerNodes
    split
    · split
      · exact List.forall_mem_singleton.mpr (placed_mtimer hsocket)
      · simp only [List.forall_mem_cons]
        exact ⟨(placed_clint hsocket).2, placed_mtimer hsocket, hsswi, by simp⟩
    · exact List.forall_mem_singleton.mpr (placed_clint hsocket).1
  have hchips : ∀ name ∈ irqchipNodes s socket, Placed s mem (.node name) := by
    unfold irqchipNodes
    split
    · exact List.forall_mem_singleton.mpr hplic
    · simp only [List.forall_mem_cons]
      exact ⟨haplic .m, haplic .s, by simp⟩
  rw [socketOwners, List.forall_mem_map, List.forall_mem_append]
  exact ⟨htimers, hchips⟩

/-- The IMSICs of a level, one group for each socket. -/
theorem nodeHardware_imsics (s : AislabState) (level : Level) :
    nodeHardware s (.imsics level) = (List.range s.socketCount).flatMap (socketImsics s level) := by
  cases level with
  | m => rfl
  | s => rfl

theorem nodeReg_imsics (s : AislabState) (level : Level) :
    nodeReg s (.imsics level) =
      (List.range s.socketCount).flatMap fun socket => regOf (imsicGroup s level socket) := by
  cases level with
  | m => rfl
  | s => rfl

/-- The IMSICs of a socket are in its group of the tree. -/
theorem socketImsics_inside {level : Level} {socket : Nat} :
    ∀ range ∈ socketImsics s level socket, range.Inside (imsicGroup s level socket) :=
  fun _ hrange => createImsics_inside (imsicPages_fit s level).1
    (Nat.le_of_eq (Nat.mul_comm _ _)) hrange

/-- A group of the tree fits the entry of the map, and the cells. -/
theorem imsicGroup_bounds (hsockets : s.socketCount ≤ aislabSocketsMax) (level : Level)
    (socket : Nat) (hsocket : socket < s.socketCount) :
    (imsicGroup s level socket).stop ≤ (imsicEntry level).base + aislabImsicMaxSize ∧
      (imsicGroup s level socket).base < 2 ^ 32 ∧ (imsicGroup s level socket).size < 2 ^ 32 := by
  have hmax : s.socketCount ≤ 4 := hsockets
  have hgroup : aislabImsicGroupMaxSize = 0x1000000 := rfl
  have hentry : aislabImsicMaxSize = 0x4000000 := rfl
  have hbase : (imsicEntry level).base ≤ 0x28000000 := by
    cases level <;> decide
  have hsize := socket_inside_group hsocket level
  simp only [imsicGroup, stop, hgroup] at hsize ⊢
  omega

theorem placed_imsics (hsockets : s.socketCount ≤ aislabSocketsMax) (level : Level) :
    Placed s mem (.node (.imsics level)) := by
  have hbounds := imsicGroup_bounds hsockets level
  have hranges : (BusOwner.node (.imsics level)).treeRanges s mem =
      (List.range s.socketCount).map (imsicGroup s level) := rfl
  have hhardware : ∀ range ∈ (BusOwner.node (.imsics level)).hardware s,
      ∃ socket < s.socketCount, range.Inside (imsicGroup s level socket) := by
    intro range hrange
    rw [BusOwner.hardware, nodeHardware_imsics] at hrange
    obtain ⟨socket, hsocket, hmem⟩ := List.mem_flatMap.mp hrange
    exact ⟨socket, List.mem_range.mp hsocket, socketImsics_inside range hmem⟩
  have hinside : ∀ socket < s.socketCount,
      (imsicGroup s level socket).Inside ((BusOwner.node (.imsics level)).home s) :=
    fun socket hsocket => inside_of_le (Nat.le_add_right _ _) (hbounds socket hsocket).1
  refine ⟨?_, ?_, ?_, ?_, ?_⟩
  · rw [BusOwner.cells, nodeReg_imsics, hranges, List.flatMap_map, List.flatMap_def,
      List.flatMap_def]
    refine congrArg List.flatten (List.map_congr_left fun socket hsocket => ?_)
    obtain ⟨-, hbase, hsize⟩ := hbounds socket (List.mem_range.mp hsocket)
    exact regOf_eq_wideRegOf hbase hsize
  · rw [hranges, List.forall_mem_map]
    intro socket hsocket
    obtain ⟨-, hbase, hsize⟩ := hbounds socket (List.mem_range.mp hsocket)
    exact ⟨by omega, by omega⟩
  · rw [hranges, List.forall_mem_map]
    exact fun socket hsocket => hinside socket (List.mem_range.mp hsocket)
  · intro range hrange
    obtain ⟨socket, hsocket, hgroup⟩ := hhardware range hrange
    exact hgroup.trans (hinside socket hsocket)
  · intro _ _ range hrange cell hcell
    obtain ⟨socket, hsocket, hgroup⟩ := hhardware range hrange
    exact ⟨_, List.mem_map_of_mem (List.mem_range.mpr hsocket), hgroup cell hcell⟩

/-- The memory nodes of the sockets are next to each other. -/
theorem SocketMemory.contains_iff (mem : SocketMemory s) (count cell : Nat) :
    (∃ socket < count, (mem.range socket).Contains cell) ↔
      (aislabMemmap .dram).base ≤ cell ∧ cell < (aislabMemmap .dram).base + mem.offset count := by
  induction count with
  | zero =>
      rw [mem.first]
      constructor
      · rintro ⟨socket, hsocket, -⟩
        exact absurd hsocket (Nat.not_lt_zero socket)
      · omega
  | succ count ih =>
      have hlast : (mem.range count).Contains cell ↔
          (aislabMemmap .dram).base + mem.offset count ≤ cell ∧
            cell < (aislabMemmap .dram).base + mem.offset count + mem.size count := Iff.rfl
      rw [mem.next, Nat.exists_lt_succ_right, ih, hlast]
      omega

/-- The memory nodes are the RAM when the board maps what the machine reports. -/
theorem placed_memory (hlimited : limitedRamSize s = s.ramSize)
    (hram : (aislabMemmap .dram).base + s.ramSize < 2 ^ 64) : Placed s mem .memory := by
  have hcells := mem.contains_iff s.socketCount
  rw [mem.total, hlimited] at hcells
  have hoffsets : ∀ count more, mem.offset count ≤ mem.offset (count + more) := by
    intro count more
    induction more with
    | zero => exact Nat.le_refl _
    | succ more ih =>
        rw [← Nat.add_assoc, mem.next]
        omega
  have hbounds : ∀ socket < s.socketCount, (mem.range socket).stop ≤ (mapRam s).stop := by
    intro socket hsocket
    obtain ⟨more, hmore⟩ := Nat.exists_eq_add_of_le (Nat.succ_le_of_lt hsocket)
    have hoffset := hoffsets (socket + 1) more
    rw [← hmore, mem.total, hlimited, mem.next] at hoffset
    simp only [stop, SocketMemory.range, mapRam]
    omega
  have hstop : (mapRam s).stop < 2 ^ 64 := hram
  have hranges : BusOwner.memory.treeRanges s mem = (List.range s.socketCount).map mem.range := rfl
  refine ⟨?_, ?_, ?_, inside_of_mem_singleton, ?_⟩
  · rw [hranges, List.flatMap_map]
    rfl
  · rw [hranges, List.forall_mem_map]
    intro socket hsocket
    have hbound := hbounds socket (List.mem_range.mp hsocket)
    unfold stop at hbound hstop
    exact ⟨by omega, by omega⟩
  · rw [hranges, List.forall_mem_map]
    exact fun socket hsocket => inside_of_le (Nat.le_add_right _ _)
      (hbounds socket (List.mem_range.mp hsocket))
  · intro _ _ range hrange cell hcell
    rw [List.mem_singleton.mp hrange] at hcell
    obtain ⟨socket, hsocket, hmem⟩ := (hcells cell).mpr hcell
    exact ⟨_, List.mem_map_of_mem (List.mem_range.mpr hsocket), hmem⟩

/-- A machine whose map is sound has a window that the cells hold, behind the RAM. -/
theorem highPcieMemmap_spec (hram : (aislabMemmap .dram).base + s.ramSize + 32 * giB ≤ 2 ^ 64)
    (hbits : s.is32bit = false ∨ s.ramSize ≤ 10 * giB) :
    CellsHold (highPcieMemmap s) ∧ (mapRam s).Apart (highPcieMemmap s) ∧
      (aislabMemmap .dram).base ≤ (highPcieMemmap s).base := by
  cases hword : s.is32bit with
  | false =>
      obtain ⟨hbehind, -, hstop⟩ := highPcieMemmap_64 hword hram
      have hsize : (highPcieMemmap s).size = 16 * giB := by
        simp [highPcieMemmap, hword, aislab64HighPcieMmioSize]
      have hgiB : giB = 0x40000000 := rfl
      have hrange : hwaddrRange = 2 ^ 64 := rfl
      unfold stop at hstop
      exact ⟨⟨by omega, by omega⟩, apart_of_le hbehind,
        Nat.le_trans (Nat.le_add_right _ _) hbehind⟩
  | true =>
      have hhigh : highPcieMemmap s = aislab32HighPcieMmio := if_pos hword
      have hsmall : s.ramSize ≤ 10 * giB := by
        rcases hbits with h64 | hsmall
        · rw [hword] at h64
          cases h64
        · exact hsmall
      refine ⟨?_, (highPcieMemmap_32 hword).mpr hsmall, ?_⟩
      · rw [hhigh]
        exact ⟨by decide, by decide⟩
      · rw [hhigh]
        decide

theorem limitedRamSize_eq (hbits : s.is32bit = false ∨ s.ramSize ≤ 10 * giB) :
    limitedRamSize s = s.ramSize := by
  refine if_neg ?_
  rintro ⟨hword, hlarge⟩
  rcases hbits with h64 | hsmall
  · rw [hword] at h64
    cases h64
  · omega

/-- All owners have their places. -/
theorem placed_busOwners (hsockets : s.socketCount ≤ aislabSocketsMax)
    (hram : (aislabMemmap .dram).base + s.ramSize + 32 * giB ≤ 2 ^ 64)
    (hbits : s.is32bit = false ∨ s.ramSize ≤ 10 * giB) :
    ∀ owner ∈ busOwners s, Placed s mem owner := by
  have hgiB : giB = 0x40000000 := rfl
  simp only [busOwners, lowOwners, List.forall_mem_cons, List.forall_mem_append]
  refine ⟨placed_memory (limitedRamSize_eq hbits) (by omega), ?_, ⟨?_, ?_⟩,
    placed_fixedOwners s mem⟩
  · exact placed_of_single rfl rfl (highPcieMemmap_spec hram hbits).1 inside_of_mem_singleton
  · intro owner howner
    obtain ⟨socket, hsocket, hmem⟩ := List.mem_flatMap.mp howner
    exact placed_socketOwners (Nat.lt_of_lt_of_le (List.mem_range.mp hsocket) hsockets) owner hmem
  · rw [List.forall_mem_map, imsicNodes]
    split
    · simp only [List.forall_mem_cons]
      exact ⟨placed_imsics hsockets .m, placed_imsics hsockets .s, by simp⟩
    · simp

end Placed

/-! ## The homes are apart -/

/-- An entry of the map for each socket. -/
def entryBank (index : MemMapIndex) : Bank :=
  singleBank (aislabMemmap index).base (aislabMemmap index).size (socketEntry index)
    fun socket => by
      rw [socketEntry, Nat.mul_comm]
      exact fun _ hcell => hcell

/-- The MTIMERs of the mode without software interrupts. -/
def msiTimerBank : Bank :=
  singleBank (aislabMemmap .clint).base riscvAclintDefaultMtimerSize
    (fun socket =>
      { base := (aislabMemmap .clint).base + riscvAclintDefaultMtimerSize * socket
        size := riscvAclintDefaultMtimerSize })
    fun socket => by
      rw [Nat.mul_comm]
      exact fun _ hcell => hcell

/-- MSWI and MTIMER of a socket, which share the entry of the CLINT. -/
def swiTimerRanges (socket : Nat) : List AddressRange :=
  [{ base := clintAddr socket, size := riscvAclintSwiSize },
    { base := (aislabMemmap .clint).base + riscvAclintSwiSize + (aislabMemmap .clint).size * socket
      size := (aislabMemmap .clint).size - riscvAclintSwiSize }]

theorem swiTimerRanges_inside (socket : Nat) {range : AddressRange}
    (hrange : range ∈ swiTimerRanges socket) :
    range.Inside
      { base := (aislabMemmap .clint).base + socket * (aislabMemmap .clint).size
        size := (aislabMemmap .clint).size } := by
  have hswi : riscvAclintSwiSize = 0x4000 := rfl
  have hsize : (aislabMemmap .clint).size = 0x10000 := rfl
  have hcomm := Nat.mul_comm (aislabMemmap .clint).size socket
  simp only [swiTimerRanges, List.mem_cons, List.not_mem_nil, or_false] at hrange
  rcases hrange with rfl | rfl
  · apply inside_of_le
    · simp only [clintAddr]
      omega
    · simp only [stop, clintAddr]
      omega
  · apply inside_of_le
    · simp only
      omega
    · simp only [stop]
      omega

theorem swiTimerRanges_apart (socket : Nat) : (swiTimerRanges socket).Pairwise Apart := by
  refine List.pairwise_pair.mpr (apart_of_le ?_)
  simp only [stop, clintAddr]
  omega

/-- The banks of MSWIs and MTIMERs. -/
def swiTimerBank : Bank where
  base := (aislabMemmap .clint).base
  stride := (aislabMemmap .clint).size
  instances := swiTimerRanges
  inWindow := fun socket _ hrange => swiTimerRanges_inside socket hrange
  apart := swiTimerRanges_apart

/-- The banks of the homes of sockets. -/
def homeBanks (haveAclint : Bool) (aiaType : AIAType) : List Bank :=
  (if haveAclint then
      if aiaType = .aplicImsic then [msiTimerBank] else [swiTimerBank, entryBank .aclintSswi]
    else [entryBank .clint]) ++
  (if aiaType = .none then [entryBank .plic] else [entryBank .aplicM, entryBank .aplicS])

/-- The homes that no socket has. -/
def otherHomes (aiaType : AIAType) : List AddressRange :=
  (if aiaType = .aplicImsic then
      [{ base := (aislabMemmap .imsicM).base, size := aislabImsicMaxSize },
        { base := (aislabMemmap .imsicS).base, size := aislabImsicMaxSize }]
    else []) ++ fixedRanges

theorem homeZones_pairwise (haveAclint : Bool) (aiaType : AIAType) :
    ((homeBanks haveAclint aiaType).map (fun bank => bank.zone aislabSocketsMax) ++
      otherHomes aiaType).Pairwise Apart := by
  cases haveAclint with
  | false => cases aiaType <;> decide
  | true => cases aiaType <;> decide

theorem homeZones_below_ram (haveAclint : Bool) (aiaType : AIAType) :
    ∀ range ∈ (homeBanks haveAclint aiaType).map (fun bank => bank.zone aislabSocketsMax) ++
      otherHomes aiaType, range.stop ≤ (aislabMemmap .dram).base := by
  cases haveAclint with
  | false => cases aiaType <;> decide
  | true => cases aiaType <;> decide

section Homes

variable {s : AislabState}

theorem map_home_socketOwners (s : AislabState) (socket : Nat) :
    (socketOwners s socket).map (BusOwner.home s) =
      instancesAt (homeBanks s.haveAclint s.aiaType) socket := by
  have hmtimer : (BusOwner.node (.mtimer socket)).home s = mtimerEntry s socket := rfl
  rw [socketOwners, timerNodes, irqchipNodes]
  cases s.haveAclint with
  | false => cases s.aiaType <;> rfl
  | true =>
      cases htype : s.aiaType <;>
        · simp only [mtimerEntry, htype] at hmtimer
          simp [homeBanks, instancesAt, hmtimer, aislabAclintAllowed, tcgEnabled]
          rfl

/-- The homes below the RAM: the instances of the banks, and the others. -/
theorem map_home_lowOwners (s : AislabState) :
    (lowOwners s).map (BusOwner.home s) =
      (List.range s.socketCount).flatMap (instancesAt (homeBanks s.haveAclint s.aiaType)) ++
        otherHomes s.aiaType := by
  have himsics : ((imsicNodes s).map BusOwner.node).map (BusOwner.home s) ++ fixedRanges =
      otherHomes s.aiaType := by
    unfold imsicNodes otherHomes
    split <;> rfl
  rw [lowOwners, List.map_append, List.map_append, List.map_flatMap, map_home_fixedOwners,
    List.append_assoc, himsics]
  exact congrArg (· ++ otherHomes s.aiaType)
    (congrArg (List.flatMap · _) (funext (map_home_socketOwners s)))

theorem homes_pairwise (hsockets : s.socketCount ≤ aislabSocketsMax)
    (hram : (aislabMemmap .dram).base + s.ramSize + 32 * giB ≤ 2 ^ 64)
    (hbits : s.is32bit = false ∨ s.ramSize ≤ 10 * giB) :
    ((busOwners s).map (BusOwner.home s)).Pairwise Apart := by
  have hlimit : ∀ socket ∈ List.range s.socketCount, socket < aislabSocketsMax :=
    fun socket hsocket => Nat.lt_of_lt_of_le (List.mem_range.mp hsocket) hsockets
  have hlow : ((lowOwners s).map (BusOwner.home s)).Pairwise Apart := by
    rw [map_home_lowOwners]
    exact pairwise_apart_instances_append (homeZones_pairwise _ _) List.pairwise_lt_range hlimit
  have hbehind : ∀ high : AddressRange, (aislabMemmap .dram).base ≤ high.base →
      ∀ range ∈ (lowOwners s).map (BusOwner.home s), high.Apart range := by
    intro high hhigh range hrange
    rw [map_home_lowOwners] at hrange
    obtain ⟨outer, houter, hinside⟩ := instances_append_inside hlimit hrange
    have hbelow := homeZones_below_ram _ _ outer houter
    exact ((apart_of_le (Nat.le_trans hbelow hhigh)).mono hinside fun _ hcell => hcell).symm
  obtain ⟨-, hapart, hhigh⟩ := highPcieMemmap_spec hram hbits
  rw [busOwners, List.map_cons, List.map_cons, List.pairwise_cons, List.pairwise_cons,
    List.forall_mem_cons]
  exact ⟨⟨hapart, hbehind _ (Nat.le_refl _)⟩, hbehind _ hhigh, hlow⟩

/-- Owners that meet are the same. -/
theorem owner_unique (hpairwise : ((busOwners s).map (BusOwner.home s)).Pairwise Apart)
    {owner other : BusOwner} (howner : owner ∈ busOwners s) (hother : other ∈ busOwners s)
    {cell : Nat} (hcell : (owner.home s).Contains cell)
    (hcell' : (other.home s).Contains cell) : owner = other := by
  have hsymm : Std.Symm fun owner other : BusOwner => (owner.home s).Apart (other.home s) :=
    ⟨fun _ _ => Apart.symm⟩
  by_contra hne
  exact (List.pairwise_map.mp hpairwise).forall howner hother hne cell hcell hcell'

/-! ## The whole map belongs to owners -/

theorem createTimers_eq (s : AislabState) (socket : Nat) :
    createTimers s socket = (timerNodes s .tcg socket).flatMap (nodeHardware s) := by
  have hmtimer : nodeHardware s (.mtimer socket) = if s.aiaType = .aplicImsic then
      [riscvAclintMtimerCreate
        ((aislabMemmap .clint).base + socket * riscvAclintDefaultMtimerSize)]
      else (createClint socket).drop 1 := rfl
  rw [createTimers, timerNodes]
  cases s.haveAclint with
  | false => rfl
  | true =>
      cases htype : s.aiaType <;> simp [htype, hmtimer, aislabAclintAllowed, tcgEnabled] <;> rfl

/-- Besides the nodes of a socket, its interrupt controller has IMSICs. -/
theorem mem_createIrqchip_iff (s : AislabState) (socket : Nat) (range : AddressRange) :
    range ∈ createIrqchip s socket ↔
      range ∈ (irqchipNodes s socket).flatMap (nodeHardware s) ∨
        s.aiaType = .aplicImsic ∧ ∃ level, range ∈ socketImsics s level socket := by
  have hlevels := createImsicLevels_eq s socket
  unfold numHarts at hlevels
  have hlevel : (∃ level, range ∈ socketImsics s level socket) ↔
      range ∈ socketImsics s .m socket ∨ range ∈ socketImsics s .s socket := by
    constructor
    · rintro ⟨level, hmem⟩
      cases level with
      | m => exact Or.inl hmem
      | s => exact Or.inr hmem
    · rintro (hmem | hmem)
      · exact ⟨_, hmem⟩
      · exact ⟨_, hmem⟩
  rw [createIrqchip, irqchipNodes, hlevel]
  cases htype : s.aiaType with
  | none => simp [nodeHardware]
  | aplic => simp [aislabCreateAia, nodeHardware, aplicEntry]
  | aplicImsic =>
      simp only [reduceCtorEq, if_false, if_true, aislabCreateAia, hlevels, List.mem_append,
        true_and]
      rw [or_comm]
      simp [nodeHardware, aplicEntry]

variable {mapped : MachineMap}

/-- The fixed ranges of the map belong to the fixed owners. -/
theorem flatMap_hardware_fixedOwners (s : AislabState) :
    fixedOwners.flatMap (BusOwner.hardware s) = fixedRanges := rfl

/-- A turn of the loop over the sockets maps what the owners of the socket have, and IMSICs. -/
theorem mem_socketRanges_iff (s : AislabState) (socket : Nat) (range : AddressRange) :
    range ∈ socketRanges s socket ↔
      range ∈ (socketOwners s socket).flatMap (BusOwner.hardware s) ∨
        s.aiaType = .aplicImsic ∧ ∃ level, range ∈ socketImsics s level socket := by
  have howners : (socketOwners s socket).flatMap (BusOwner.hardware s) =
      (timerNodes s .tcg socket ++ irqchipNodes s socket).flatMap (nodeHardware s) := by
    rw [socketOwners, List.flatMap_map]
    rfl
  rw [socketRanges, List.mem_append, createTimers_eq, mem_createIrqchip_iff, howners,
    List.flatMap_append, List.mem_append, or_assoc]

/-- The IMSIC nodes have the IMSICs of all sockets. -/
theorem mem_imsicOwners_iff (s : AislabState) (range : AddressRange) :
    range ∈ ((imsicNodes s).map BusOwner.node).flatMap (BusOwner.hardware s) ↔
      ∃ socket ∈ List.range s.socketCount,
        s.aiaType = .aplicImsic ∧ ∃ level, range ∈ socketImsics s level socket := by
  rw [List.flatMap_map, imsicNodes]
  split
  · rename_i himsic
    simp only [List.flatMap_cons, List.flatMap_nil, List.append_nil, List.mem_append,
      BusOwner.hardware, nodeHardware_imsics, List.mem_flatMap]
    constructor
    · rintro (⟨socket, hsocket, hmem⟩ | ⟨socket, hsocket, hmem⟩)
      · exact ⟨socket, hsocket, himsic, _, hmem⟩
      · exact ⟨socket, hsocket, himsic, _, hmem⟩
    · rintro ⟨socket, hsocket, -, level, hmem⟩
      cases level with
      | m => exact Or.inl ⟨socket, hsocket, hmem⟩
      | s => exact Or.inr ⟨socket, hsocket, hmem⟩
  · rename_i himsic
    simp [himsic]

/-- The loop over the sockets. -/
theorem mem_socketLoop_iff (s : AislabState) (range : AddressRange) :
    range ∈ (List.range s.socketCount).flatMap (socketRanges s) ↔
      range ∈ ((List.range s.socketCount).flatMap (socketOwners s)).flatMap (BusOwner.hardware s) ∨
        range ∈ ((imsicNodes s).map BusOwner.node).flatMap (BusOwner.hardware s) := by
  rw [mem_imsicOwners_iff, List.flatMap_assoc, List.mem_flatMap, List.mem_flatMap]
  constructor
  · rintro ⟨socket, hsocket, hmem⟩
    rcases (mem_socketRanges_iff s socket range).mp hmem with howner | himsic
    · exact Or.inl ⟨socket, hsocket, howner⟩
    · exact Or.inr ⟨socket, hsocket, himsic⟩
  · rintro (⟨socket, hsocket, howner⟩ | ⟨socket, hsocket, himsic⟩)
    · exact ⟨socket, hsocket, (mem_socketRanges_iff s socket range).mpr (Or.inl howner)⟩
    · exact ⟨socket, hsocket, (mem_socketRanges_iff s socket range).mpr (Or.inr himsic)⟩

/-- Every mapped range is hardware of an owner, and all hardware is mapped. -/
theorem mem_ranges_iff (hinit : aislabMachineInit s = .ok mapped) (range : AddressRange) :
    range ∈ mapped.ranges ↔ ∃ owner ∈ busOwners s, range ∈ owner.hardware s := by
  have hfixed : range ∈ fixedOwners.flatMap (BusOwner.hardware s) ↔
      range ∈ rangesBeforeHighPcie ∨ range ∈ rangesAfterHighPcie := by
    rw [flatMap_hardware_fixedOwners, fixedRanges, List.mem_append]
  have hram : range ∈ BusOwner.memory.hardware s ↔ range = mapRam s := List.mem_singleton
  have hhigh : range ∈ BusOwner.pciMmio64.hardware s ↔ range = highPcieMemmap s :=
    List.mem_singleton
  rw [(aislabMachineInit_eq_ok hinit).2.2, ← List.mem_flatMap, busOwners, lowOwners,
    List.flatMap_cons, List.flatMap_cons, List.flatMap_append, List.flatMap_append]
  simp only [List.mem_append, List.mem_cons, mem_socketLoop_iff, hfixed, hram, hhigh]
  -- The same parts, in the order of the source and in that of the owners.
  grind only

/-- The nodes that are not those of a hart. -/
def NodeName.OnBus : NodeName → Prop
  | .cpu _ _ | .intc _ _ => False
  | _ => True

theorem hartNodes_not_onBus {hart : Hart} {name : NodeName} (hname : name ∈ hartNodes s hart) :
    ¬name.OnBus := by
  simp only [hartNodes, List.mem_cons, List.not_mem_nil, or_false] at hname
  rcases hname with rfl | rfl
  · exact not_false
  · exact not_false

theorem timerNodes_onBus {socket : Nat} {name : NodeName}
    (hname : name ∈ timerNodes s .tcg socket ++ irqchipNodes s socket) : name.OnBus := by
  rcases List.mem_append.mp hname with htimer | hchip
  · have hcases : name = .clint socket ∨ name = .mswi socket ∨ name = .mtimer socket ∨
        name = .sswi socket := by
      unfold timerNodes at htimer
      grind
    rcases hcases with rfl | rfl | rfl | rfl <;> exact trivial
  · have hcases : name = .plic socket ∨ ∃ level, name = .aplic level socket := by
      unfold irqchipNodes at hchip
      grind
    rcases hcases with rfl | ⟨level, rfl⟩ <;> exact trivial

theorem deviceNodes_onBus {name : NodeName} (hname : name ∈ imsicNodes s ++ deviceNodes) :
    name.OnBus := by
  cases name with
  | cpu hart hartid =>
      unfold imsicNodes deviceNodes at hname
      grind
  | intc hart hartid =>
      unfold imsicNodes deviceNodes at hname
      grind
  | _ => exact trivial

/-- The owners with a node are the nodes of the tree that have a place on the bus. -/
theorem node_mem_busOwners_iff (s : AislabState) (cpus : Nat) (name : NodeName) :
    BusOwner.node name ∈ busOwners s ↔
      name ∈ (finalizeFdt s .tcg cpus).nodes.map FdtNode.name ∧ name.OnBus := by
  have hfixed : BusOwner.node name ∈ fixedOwners ↔ name ∈ deviceNodes := by
    cases name <;> simp [fixedOwners, deviceNodes]
  have howners : BusOwner.node name ∈ busOwners s ↔
      (∃ socket ∈ List.range s.socketCount,
        name ∈ timerNodes s .tcg socket ++ irqchipNodes s socket) ∨
      name ∈ imsicNodes s ++ deviceNodes := by
    simp only [busOwners, lowOwners, socketOwners, List.mem_cons, List.mem_append, reduceCtorEq,
      false_or, List.mem_flatMap, List.mem_map, BusOwner.node.injEq, exists_eq_right, hfixed,
      or_assoc]
  rw [(finalizeFdt_nodes s .tcg cpus).mem_iff, howners, expectedNodes]
  simp only [List.mem_append, List.mem_flatMap]
  constructor
  · rintro (⟨socket, hsocket, hname⟩ | hname)
    · refine ⟨?_, timerNodes_onBus (List.mem_append.mpr hname)⟩
      rcases hname with htimer | hchip
      · exact Or.inl (Or.inl (Or.inl ⟨socket, hsocket, Or.inr htimer⟩))
      · exact Or.inl (Or.inr ⟨socket, hsocket, hchip⟩)
    · refine ⟨?_, deviceNodes_onBus (List.mem_append.mpr hname)⟩
      rcases hname with himsic | hdevice
      · exact Or.inl (Or.inl (Or.inr himsic))
      · exact Or.inr hdevice
  · rintro ⟨((⟨socket, hsocket, ⟨hart, -, hname⟩ | htimer⟩ | himsic) |
      ⟨socket, hsocket, hchip⟩) | hdevice, hbus⟩
    · exact absurd hbus (hartNodes_not_onBus hname)
    · exact Or.inl ⟨socket, hsocket, Or.inl htimer⟩
    · exact Or.inr (Or.inl himsic)
    · exact Or.inl ⟨socket, hsocket, Or.inr hchip⟩
    · exact Or.inr (Or.inr hdevice)

/-! ## The result -/

/-- The tree and the map of the board agree on whom the addresses belong to. -/
structure TreeMatchesBus (s : AislabState) (mem : SocketMemory s) (mapped : MachineMap) : Prop where
  complete : ∀ range, range ∈ mapped.ranges ↔ ∃ owner ∈ busOwners s, range ∈ owner.hardware s
  covered : ∀ owner ∈ busOwners s, owner ≠ .mrom → owner ≠ .platformBus →
    ∀ range ∈ owner.hardware s, ∀ cell, range.Contains cell → owner.InTree s mem cell
  exclusive : ∀ owner ∈ busOwners s, ∀ cell, owner.InTree s mem cell →
    ∀ range ∈ mapped.ranges, range.Contains cell → range ∈ owner.hardware s
  apart : ∀ owner ∈ busOwners s, ∀ other ∈ busOwners s, ∀ cell,
    owner.InTree s mem cell → other.InTree s mem cell → owner = other
  ram : ∀ cell, BusOwner.memory.InTree s mem cell ↔ (mapRam s).Contains cell
  nodes : ∀ cpus name, BusOwner.node name ∈ busOwners s ↔
    name ∈ (finalizeFdt s .tcg cpus).nodes.map FdtNode.name ∧ name.OnBus

/-- They agree on every accepted machine whose RAM does not reach the high PCIe window. -/
theorem treeMatchesBus (mem : SocketMemory s) (hinit : aislabMachineInit s = .ok mapped)
    (hram : (aislabMemmap .dram).base + s.ramSize + 32 * giB ≤ 2 ^ 64)
    (hbits : s.is32bit = false ∨ s.ramSize ≤ 10 * giB) : TreeMatchesBus s mem mapped := by
  obtain ⟨hsockets, -, -⟩ := aislabMachineInit_eq_ok hinit
  have hplaced : ∀ owner ∈ busOwners s, Placed s mem owner := placed_busOwners hsockets hram hbits
  have hpairwise := homes_pairwise hsockets hram hbits
  have hmemory : BusOwner.memory ∈ busOwners s := List.mem_cons_self
  have hcovered : ∀ owner ∈ busOwners s, owner ≠ .mrom → owner ≠ .platformBus →
      ∀ range ∈ owner.hardware s, ∀ cell, range.Contains cell → owner.InTree s mem cell := by
    intro owner howner hmrom hbus range hrange cell hcell
    rw [(hplaced owner howner).inTree_iff]
    exact (hplaced owner howner).covered hmrom hbus range hrange cell hcell
  refine ⟨mem_ranges_iff hinit, hcovered, ?_, ?_, ?_, node_mem_busOwners_iff s⟩
  · intro owner howner cell htree range hrange hcell
    obtain ⟨other, hother, hhardware⟩ := (mem_ranges_iff hinit range).mp hrange
    have hsame := owner_unique hpairwise howner hother ((hplaced owner howner).home_of_inTree htree)
      ((hplaced other hother).hardware range hhardware cell hcell)
    rw [hsame]
    exact hhardware
  · intro owner howner other hother cell htree htree'
    exact owner_unique hpairwise howner hother ((hplaced owner howner).home_of_inTree htree)
      ((hplaced other hother).home_of_inTree htree')
  · intro cell
    constructor
    · exact (hplaced _ hmemory).home_of_inTree
    · exact hcovered _ hmemory (by simp) (by simp) _ (List.mem_singleton_self _) cell

end Homes

/-- Two sockets with half of the RAM each. -/
def halves (ramSize : Nat) (heven : 2 * (ramSize / 2) = ramSize) :
    SocketMemory (twoSocketBoard false ramSize) where
  offset := fun socket => socket * (ramSize / 2)
  size := fun _ => ramSize / 2
  first := Nat.zero_mul _
  next := fun _ => Nat.succ_mul _ _
  total := heven

theorem treeMatchesBus_64_gib : ∃ mapped,
    aislabMachineInit (twoSocketBoard false (64 * giB)) = .ok mapped ∧
      TreeMatchesBus (twoSocketBoard false (64 * giB)) (halves (64 * giB) rfl) mapped :=
  ⟨_, rfl, treeMatchesBus (halves (64 * giB) rfl) rfl (by decide) (Or.inl rfl)⟩

end Board
end AislabVP
