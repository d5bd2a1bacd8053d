import AislabVP.Board.InterruptLinks
import Mathlib.Tactic.IntervalCases

/-!
# From a device's output to the line that the guest knows

`aislab_machine_init`, `gpex_pcie_init` and `create_platform_bus` connect the outputs of
devices to inputs of interrupt controllers (`connections`).  The guest is told by the device
tree: `interrupt-parent` and `interrupts` of a node, and for a PCI function the table
`interrupt-map`, which it looks up with the function's address and pin.

`create_pcie_irq_map` fills that table through a pointer that moves on by a stride, which the
first turn of its loop finds out.  The table is kept as the array of cells that it is, with
writes outside of the array as failures (`createPcieIrqMapCells`), and the guest parses it
again (`parseIrqMap`); what it parses are the links of the node in the tree
(`filterMap_createPcieIrqMap`).

Which output of the PCIe host a function drives is decided by QEMU's `pci_swizzle_map_irq_fn`,
which is not in the repository: a parameter, of which the results assume the standard swizzle
that the comment in `create_pcie_irq_map` names (`SwizzleMapIrq`).  It is about the functions
on the root bus, whose interrupts pass no bridge.

`InterruptRoutes` says that both ends agree for every device and for every such function:
the input that the hardware drives is the line that the guest looks up, at the controller that
it finds, and no two outputs share one.
-/

namespace AislabVP
namespace Board

/-! ## Connections -/

/-- An output of a device. -/
inductive IrqOutput where
  | virtio (index : Nat)
  | gpex (index : Nat)
  | platformBus (index : Nat)
  | uart0
  | rtc
  | mmioBus
  deriving DecidableEq, Repr

/-- `qdev_get_gpio_in`: a line of `s->irqchip[irqchip]`. -/
structure GpioIn where
  irqchip : Option Nat
  line : Nat
  deriving DecidableEq, Repr

/-- `AISLAB_PLATFORM_BUS_NUM_IRQS`. -/
def aislabPlatformBusNumIrqs : Nat := 32

/-- `gpex_pcie_init`: `PCIE_IRQ + i`. -/
def gpexPcieInit (irqchip : Option Nat) : List (IrqOutput × GpioIn) :=
  (List.range gpexNumIrqs).map fun i => (.gpex i, { irqchip := irqchip, line := 0x20 + i })

/-- `create_platform_bus`: `AISLAB_PLATFORM_BUS_IRQ + i`. -/
def createPlatformBus (irqchip : Option Nat) : List (IrqOutput × GpioIn) :=
  (List.range aislabPlatformBusNumIrqs).map fun i =>
    (.platformBus i, { irqchip := irqchip, line := 64 + i })

/-- The outputs that `aislab_machine_init` connects, in its order. -/
def connections (s : AislabState) : List (IrqOutput × GpioIn) :=
  let chips := machineInitIrqchips s
  ((List.range 8).map fun i => (.virtio i, { irqchip := chips.virtio, line := 1 + i })) ++
    gpexPcieInit chips.pcie ++ createPlatformBus chips.mmio ++
    [(.uart0, { irqchip := chips.mmio, line := 10 }),
      (.rtc, { irqchip := chips.mmio, line := 11 }),
      (.mmioBus, { irqchip := chips.mmio, line := 96 })]

/-! ## `create_pcie_irq_map` -/

/-- `FDT_PCI_ADDR_CELLS`. -/
def fdtPciAddrCells : Nat := 3

/-- `FDT_PCI_INT_CELLS`. -/
def fdtPciIntCells : Nat := 1

/-- `FDT_MAX_INT_CELLS`. -/
def fdtMaxIntCells : Nat := 2

/-- `FDT_MAX_INT_MAP_WIDTH`. -/
def fdtMaxIntMapWidth : Nat := fdtPciAddrCells + fdtPciIntCells + 1 + fdtMaxIntCells

/-- `PCI_SLOT`. -/
def pciSlot (devfn : Nat) : Nat := devfn >>> 3 &&& 0x1f

/-- `full_irq_map`, `irq_map` as a place in it, and `irq_map_stride`. -/
structure IrqMapState where
  cells : List (BitVec 32)
  irqMap : Nat
  stride : Nat

/-- `irq_map[i] = cpu_to_be32(value)`; `none` is a write outside of `full_irq_map`. -/
def IrqMapState.store (st : IrqMapState) (i : Nat) (value : BitVec 32) : Option IrqMapState :=
  if st.irqMap + i < st.cells.length then
    some { st with cells := st.cells.set (st.irqMap + i) value }
  else none

/-- The end of a turn: `irq_map` moves on. -/
def IrqMapState.advance (st : IrqMapState) (i : Nat) : IrqMapState :=
  let stride := if st.stride = 0 then i else st.stride
  { st with irqMap := st.irqMap + stride, stride := stride }

/-- One turn of the loops of `create_pcie_irq_map`. -/
def irqMapTurn (s : AislabState) (irqchipPhandle : BitVec 32) (dev pin : Nat) (st : IrqMapState) :
    Option IrqMapState := do
  let devfn := dev * 0x8
  let irqNr := 0x20 + (pin + pciSlot devfn) % gpexNumIrqs
  let st ← st.store 0 (BitVec.ofNat 32 (devfn <<< 8))
  let i := fdtPciAddrCells
  let st ← st.store i (BitVec.ofNat 32 (pin + 1))
  let i := i + fdtPciIntCells
  let st ← st.store i irqchipPhandle
  let st ← st.store (i + 1) (BitVec.ofNat 32 irqNr)
  if s.aiaType ≠ .none then
    let st ← st.store (i + 2) 0x4
    some (st.advance (i + 3))
  else some (st.advance (i + 2))

/-- The loops of `create_pcie_irq_map`, and the cells of `interrupt-map`. -/
def createPcieIrqMapCells (s : AislabState) (irqchipPhandle : BitVec 32) :
    Option (List (BitVec 32)) := do
  let initial : IrqMapState :=
    { cells := List.replicate (gpexNumIrqs * gpexNumIrqs * fdtMaxIntMapWidth) 0
      irqMap := 0
      stride := 0 }
  let st ← (List.range gpexNumIrqs).foldlM
    (fun st dev =>
      (List.range gpexNumIrqs).foldlM (fun st pin => irqMapTurn s irqchipPhandle dev pin st) st)
    initial
  some (st.cells.take (gpexNumIrqs * gpexNumIrqs * st.stride))

/-- A unit interrupt specifier: the address of a PCI function and its pin, from 1. -/
structure PciUnit where
  addrHigh : BitVec 32
  addrMid : BitVec 32
  addrLow : BitVec 32
  pin : BitVec 32
  deriving DecidableEq, Repr

/-- `interrupt-map-mask`. -/
def interruptMapMask : PciUnit where
  addrHigh := 0x1800
  addrMid := 0
  addrLow := 0
  pin := 0x7

/-! ## The guest -/

/-- A row of an `interrupt-map`. -/
structure IrqMapEntry where
  unit : PciUnit
  parent : BitVec 32
  specifier : List (BitVec 32)
  deriving DecidableEq, Repr

/-- The rows, when the parent has a number of interrupt cells and no address cells. -/
def parseIrqMap (intCells : Nat) : List (BitVec 32) → List IrqMapEntry
  | addrHigh :: addrMid :: addrLow :: pin :: parent :: rest =>
      { unit := { addrHigh := addrHigh, addrMid := addrMid, addrLow := addrLow, pin := pin }
        parent := parent
        specifier := rest.take intCells } :: parseIrqMap intCells (rest.drop intCells)
  | _ => []
  termination_by cells => cells.length
  decreasing_by
    simp only [List.length_cons, List.length_drop]
    omega

/-- The bits that the mask lets through. -/
def PciUnit.masked (unit mask : PciUnit) : PciUnit where
  addrHigh := unit.addrHigh &&& mask.addrHigh
  addrMid := unit.addrMid &&& mask.addrMid
  addrLow := unit.addrLow &&& mask.addrLow
  pin := unit.pin &&& mask.pin

/-- The rows that the guest finds for a unit. -/
def lookupIrqMap (entries : List IrqMapEntry) (unit : PciUnit) : List IrqMapEntry :=
  entries.filter fun entry => entry.unit = unit.masked interruptMapMask

/-- `PCI_DEVFN`. -/
def pciDevfn (slot function : Nat) : Nat := slot * 0x8 + function

/-- The unit of a pin of a function on the root bus, which is bus 0; `addrMid` and `addrLow` are
those of no matter what register. -/
def pciUnit (slot function pin : Nat) (addrMid addrLow : BitVec 32) : PciUnit where
  addrHigh := BitVec.ofNat 32 (pciDevfn slot function * 0x100)
  addrMid := addrMid
  addrLow := addrLow
  pin := BitVec.ofNat 32 (pin + 1)

/-- The standard swizzle: the output of the host that a pin of a function drives. -/
def SwizzleMapIrq (mapIrq : Nat → Nat → Nat) : Prop :=
  ∀ devfn pin, devfn < 0x100 → pin < 4 → mapIrq devfn pin = (pciSlot devfn + pin) % gpexNumIrqs

/-- `FDT_PLIC_INT_CELLS` and `FDT_APLIC_INT_CELLS`. -/
def irqchipIntCells (s : AislabState) : Nat := if s.aiaType = .none then 1 else 2

/-! ## The cells of the table -/

section Cells

variable {s : AislabState}

/-- The row of a slot and a pin. -/
def irqMapRow (s : AislabState) (irqchipPhandle : BitVec 32) (dev pin : Nat) : IrqMapEntry where
  unit :=
    { addrHigh := BitVec.ofNat 32 ((dev * 0x8) <<< 8)
      addrMid := 0
      addrLow := 0
      pin := BitVec.ofNat 32 (pin + 1) }
  parent := irqchipPhandle
  specifier := (interruptSpec s (0x20 + (pin + pciSlot (dev * 0x8)) % gpexNumIrqs)).map
    (BitVec.ofNat 32)

/-- The row that a link of the node is. -/
def IrqMapEntry.ofLink (s : AislabState) (link : FdtLink) : Option IrqMapEntry :=
  match link.property with
  | .interruptMap devfn pin irq =>
      some
        { unit :=
            { addrHigh := BitVec.ofNat 32 (devfn <<< 8)
              addrMid := 0
              addrLow := 0
              pin := BitVec.ofNat 32 pin }
          parent := link.phandle
          specifier := (interruptSpec s irq).map (BitVec.ofNat 32) }
  | _ => none

/-- The cells of a row. -/
def IrqMapEntry.cells (entry : IrqMapEntry) : List (BitVec 32) :=
  [entry.unit.addrHigh, entry.unit.addrMid, entry.unit.addrLow, entry.unit.pin, entry.parent] ++
    entry.specifier

/-- The rows in the order of the loops. -/
def irqMapRows (s : AislabState) (irqchipPhandle : BitVec 32) : List IrqMapEntry :=
  (List.range gpexNumIrqs).flatMap fun dev =>
    (List.range gpexNumIrqs).map fun pin => irqMapRow s irqchipPhandle dev pin

/-- The links that the tree keeps for `create_pcie_irq_map` are its rows. -/
theorem filterMap_createPcieIrqMap (s : AislabState) (phandle : BitVec 32) :
    (createPcieIrqMap phandle).filterMap (IrqMapEntry.ofLink s) = irqMapRows s phandle := rfl

/-- The cells of one row. -/
def irqMapWidth (s : AislabState) : Nat := 5 + irqchipIntCells s

theorem length_interruptSpec (s : AislabState) (irq : Nat) :
    (interruptSpec s irq).length = irqchipIntCells s := by
  unfold interruptSpec irqchipIntCells
  split <;> rfl

theorem length_irqMapRow_cells (s : AislabState) (phandle : BitVec 32) (dev pin : Nat) :
    (irqMapRow s phandle dev pin).cells.length = irqMapWidth s := by
  simp [IrqMapEntry.cells, irqMapRow, irqMapWidth, length_interruptSpec]
  omega

/-- A write behind a number of cells. -/
theorem store_append {done rest : List (BitVec 32)} {stride i : Nat} (value : BitVec 32)
    (hi : i < rest.length) :
    IrqMapState.store { cells := done ++ rest, irqMap := done.length, stride := stride } i value =
      some { cells := done ++ rest.set i value, irqMap := done.length, stride := stride } := by
  unfold IrqMapState.store
  rw [if_pos (by simp only [List.length_append]; omega),
    List.set_append_right _ _ (Nat.le_add_right _ _), Nat.add_sub_cancel_left]

/-- A turn writes one row over the zeros at its place. -/
theorem irqMapTurn_eq (s : AislabState) (phandle : BitVec 32) (dev pin : Nat)
    {done : List (BitVec 32)} {stride more : Nat} (hstride : stride = 0 ∨ stride = irqMapWidth s) :
    irqMapTurn s phandle dev pin
        { cells := done ++ List.replicate (irqMapWidth s + more) 0
          irqMap := done.length
          stride := stride } =
      some
        { cells := done ++ ((irqMapRow s phandle dev pin).cells ++ List.replicate more 0)
          irqMap := done.length + irqMapWidth s
          stride := irqMapWidth s } := by
  have hnext : (if stride = 0 then irqMapWidth s else stride) = irqMapWidth s := by
    rcases hstride with hzero | hsame
    · rw [if_pos hzero]
    · rw [hsame, ite_self]
  rw [List.replicate_add]
  unfold irqMapTurn
  by_cases htype : s.aiaType = .none
  · have hwidth : irqMapWidth s = 6 := by
      simp [irqMapWidth, irqchipIntCells, htype]
    rw [hwidth] at hnext ⊢
    simp [store_append, fdtPciAddrCells, fdtPciIntCells, htype, IrqMapState.advance, hnext,
      IrqMapEntry.cells, irqMapRow, interruptSpec, List.replicate_succ]
  · have hwidth : irqMapWidth s = 7 := by
      simp [irqMapWidth, irqchipIntCells, htype]
    rw [hwidth] at hnext ⊢
    simp [store_append, fdtPciAddrCells, fdtPciIntCells, htype, IrqMapState.advance, hnext,
      IrqMapEntry.cells, irqMapRow, interruptSpec, List.replicate_succ]

/-- The array with a number of rows, and zeros behind them. -/
structure Filled (s : AislabState) (rows : List IrqMapEntry) (more : Nat) (st : IrqMapState) :
    Prop where
  cells : st.cells = rows.flatMap IrqMapEntry.cells ++ List.replicate more 0
  place : st.irqMap = (rows.flatMap IrqMapEntry.cells).length
  stride : st.stride = 0 ∧ rows = [] ∨ st.stride = irqMapWidth s

theorem Filled.turn {rows : List IrqMapEntry} {more : Nat} {st : IrqMapState}
    (hfilled : Filled s rows (irqMapWidth s + more) st) (phandle : BitVec 32) (dev pin : Nat) :
    ∃ st', irqMapTurn s phandle dev pin st = some st' ∧
      Filled s (rows ++ [irqMapRow s phandle dev pin]) more st' := by
  obtain ⟨cells, irqMap, stride⟩ := st
  obtain ⟨hcells, hplace, hstride⟩ := hfilled
  simp only at hcells hplace hstride
  subst hcells hplace
  have hold : stride = 0 ∨ stride = irqMapWidth s := hstride.imp_left And.left
  refine ⟨_, irqMapTurn_eq s phandle dev pin hold, ?_, ?_, Or.inr rfl⟩
  · simp only [List.flatMap_append, List.flatMap_singleton, List.append_assoc]
  · simp only [List.flatMap_append, List.flatMap_singleton, List.length_append,
      length_irqMapRow_cells]

/-- A loop whose turns each write rows. -/
theorem Filled.loop {turn : IrqMapState → Nat → Option IrqMapState}
    {rowsOf : Nat → List IrqMapEntry} {width : Nat}
    (hturn : ∀ rows more st index, Filled s rows (width + more) st →
      ∃ st', turn st index = some st' ∧ Filled s (rows ++ rowsOf index) more st')
    (indices : List Nat) {rows : List IrqMapEntry} {more : Nat} {st : IrqMapState}
    (hfilled : Filled s rows (indices.length * width + more) st) :
    ∃ st', indices.foldlM turn st = some st' ∧
      Filled s (rows ++ indices.flatMap rowsOf) more st' := by
  induction indices generalizing rows st with
  | nil =>
      refine ⟨st, rfl, ?_⟩
      simpa using hfilled
  | cons index rest ih =>
      rw [List.length_cons, Nat.succ_mul, Nat.add_comm (rest.length * width), Nat.add_assoc]
        at hfilled
      obtain ⟨next, hnext, hfirst⟩ := hturn rows _ st index hfilled
      obtain ⟨st', hrest, hall⟩ := ih hfirst
      refine ⟨st', ?_, ?_⟩
      · rw [List.foldlM_cons, hnext]
        exact hrest
      · rw [List.flatMap_cons, ← List.append_assoc]
        exact hall

theorem length_irqMapRows (s : AislabState) (phandle : BitVec 32) :
    (irqMapRows s phandle).length = gpexNumIrqs * gpexNumIrqs := rfl

/-- All rows have the same width. -/
theorem length_flatMap_cells {rows : List IrqMapEntry} {width : Nat}
    (hrows : ∀ row ∈ rows, row.cells.length = width) :
    (rows.flatMap IrqMapEntry.cells).length = rows.length * width := by
  induction rows with
  | nil => simp
  | cons row rest ih =>
      obtain ⟨hrow, hrest⟩ := List.forall_mem_cons.mp hrows
      rw [List.flatMap_cons, List.length_append, ih hrest, hrow, List.length_cons, Nat.succ_mul,
        Nat.add_comm]

theorem mem_irqMapRows {phandle : BitVec 32} {row : IrqMapEntry}
    (hrow : row ∈ irqMapRows s phandle) : ∃ dev pin, row = irqMapRow s phandle dev pin := by
  obtain ⟨dev, -, hpins⟩ := List.mem_flatMap.mp hrow
  obtain ⟨pin, -, rfl⟩ := List.mem_map.mp hpins
  exact ⟨dev, pin, rfl⟩

/-- The writes stay inside of the array, and the property has the rows of all slots and
pins. -/
theorem createPcieIrqMapCells_eq (s : AislabState) (phandle : BitVec 32) :
    createPcieIrqMapCells s phandle =
      some ((irqMapRows s phandle).flatMap IrqMapEntry.cells) := by
  let more := 16 * (2 - irqchipIntCells s)
  have hspace : gpexNumIrqs * gpexNumIrqs * fdtMaxIntMapWidth =
      (List.range gpexNumIrqs).length * ((List.range gpexNumIrqs).length * irqMapWidth s) +
        more := by
    simp only [more, gpexNumIrqs, fdtMaxIntMapWidth, fdtPciAddrCells, fdtPciIntCells,
      fdtMaxIntCells, irqMapWidth, irqchipIntCells, List.length_range]
    split <;> omega
  have hinitial : Filled s []
      ((List.range gpexNumIrqs).length * ((List.range gpexNumIrqs).length * irqMapWidth s) + more)
      { cells := List.replicate (gpexNumIrqs * gpexNumIrqs * fdtMaxIntMapWidth) 0
        irqMap := 0
        stride := 0 } :=
    ⟨by rw [hspace]; rfl, rfl, Or.inl ⟨rfl, rfl⟩⟩
  obtain ⟨st, hloop, hfilled⟩ := Filled.loop
    (fun rows more st dev hrows => Filled.loop
      (fun rows more st pin hrows => hrows.turn phandle dev pin) (List.range gpexNumIrqs) hrows)
    (List.range gpexNumIrqs) hinitial
  have hrows : [] ++ (List.range gpexNumIrqs).flatMap (fun dev =>
      (List.range gpexNumIrqs).flatMap fun pin => [irqMapRow s phandle dev pin]) =
        irqMapRows s phandle := rfl
  rw [hrows] at hfilled
  have hstride : st.stride = irqMapWidth s := by
    rcases hfilled.stride with ⟨-, hempty⟩ | hsame
    · have hlength := length_irqMapRows s phandle
      rw [hempty] at hlength
      cases hlength
    · exact hsame
  have hlength : ((irqMapRows s phandle).flatMap IrqMapEntry.cells).length =
      gpexNumIrqs * gpexNumIrqs * st.stride := by
    rw [hstride, ← length_irqMapRows s phandle]
    apply length_flatMap_cells
    intro row hrow
    obtain ⟨dev, pin, rfl⟩ := mem_irqMapRows hrow
    exact length_irqMapRow_cells s phandle dev pin
  rw [createPcieIrqMapCells]
  simp only [hloop, Option.bind_eq_bind, Option.bind_some]
  rw [hfilled.cells, ← hlength, List.take_left]

/-! ## The lookup -/

/-- The guest parses the rows that the board has written. -/
theorem parseIrqMap_flatMap {intCells : Nat} {rows : List IrqMapEntry}
    (hrows : ∀ row ∈ rows, row.specifier.length = intCells) :
    parseIrqMap intCells (rows.flatMap IrqMapEntry.cells) = rows := by
  induction rows with
  | nil => simp [parseIrqMap]
  | cons row rest ih =>
      obtain ⟨hrow, hrest⟩ := List.forall_mem_cons.mp hrows
      rw [List.flatMap_cons, IrqMapEntry.cells, List.append_assoc]
      simp only [List.cons_append, List.nil_append]
      rw [parseIrqMap, ← hrow, List.take_left, List.drop_left, hrow, ih hrest]

/-- The mask takes two bits of the slot. -/
theorem and_slotMask (n : Nat) : n &&& 0x1800 = n / 0x800 % 4 * 0x800 := by
  have hmask : n &&& 3 <<< 11 = (n >>> 11 &&& 3) <<< 11 := by
    apply Nat.eq_of_testBit_eq
    intro i
    simp only [Nat.testBit_and, Nat.testBit_shiftLeft, Nat.testBit_shiftRight]
    by_cases hlow : 11 ≤ i
    · rw [Nat.add_sub_cancel' hlow]
      simp [hlow]
    · simp [hlow]
  have hfour : n >>> 11 &&& 3 = n >>> 11 % 4 := Nat.and_two_pow_sub_one_eq_mod (n >>> 11) 2
  have hshift : (3 : Nat) <<< 11 = 0x1800 := rfl
  rw [hshift, hfour, Nat.shiftLeft_eq, Nat.shiftRight_eq_div_pow] at hmask
  exact hmask

/-- What the mask leaves of the unit of a function. -/
theorem masked_pciUnit (slot : Nat) {function pin : Nat} (hfunction : function < 8)
    (hpin : pin < 4) (addrMid addrLow : BitVec 32) :
    (pciUnit slot function pin addrMid addrLow).masked interruptMapMask =
      { addrHigh := BitVec.ofNat 32 ((slot % 4 * 0x8) <<< 8)
        addrMid := 0
        addrLow := 0
        pin := BitVec.ofNat 32 (pin + 1) } := by
  have hhigh : BitVec.ofNat 32 ((slot * 0x8 + function) * 0x100) &&& (0x1800 : BitVec 32) =
      BitVec.ofNat 32 ((slot % 4 * 0x8) <<< 8) := by
    have hmask : (0x1800 : BitVec 32).toNat = 0x1800 := rfl
    apply BitVec.eq_of_toNat_eq
    rw [BitVec.toNat_and, BitVec.toNat_ofNat, BitVec.toNat_ofNat, hmask, and_slotMask,
      Nat.shiftLeft_eq]
    omega
  have hpinBits : BitVec.ofNat 32 (pin + 1) &&& (0x7 : BitVec 32) =
      BitVec.ofNat 32 (pin + 1) := by
    interval_cases pin <;> rfl
  have hzero : ∀ cell : BitVec 32, cell &&& 0 = 0 := fun _ => BitVec.and_zero
  unfold PciUnit.masked pciUnit pciDevfn interruptMapMask
  simp only [hhigh, hpinBits, hzero]

/-- Every pin of every function finds one row. -/
theorem lookupIrqMap_rows (s : AislabState) (phandle : BitVec 32) (slot : Nat)
    {function pin : Nat} (hfunction : function < 8) (hpin : pin < 4)
    (addrMid addrLow : BitVec 32) :
    lookupIrqMap (irqMapRows s phandle) (pciUnit slot function pin addrMid addrLow) =
      [irqMapRow s phandle (slot % 4) pin] := by
  have hdev : slot % 4 < 4 := Nat.mod_lt _ (by omega)
  unfold lookupIrqMap
  rw [masked_pciUnit slot hfunction hpin]
  generalize slot % 4 = dev at hdev
  interval_cases dev <;> interval_cases pin <;> rfl

end Cells

/-! ## Routes -/

/-- The nodes of the devices whose outputs the tree describes with `interrupts`. -/
def describedOutputs : List (IrqOutput × NodeName) :=
  (List.range 8).map (fun i => (.virtio i, .virtioMmio i)) ++
    [(.uart0, .serial), (.rtc, .rtc), (.mmioBus, .mmioBus)]

/-- Following the phandle, the guest finds the node of the controller of the input, and no
other one. -/
def Resolves (s : AislabState) (nodes : List FdtNode) (phandle : BitVec 32) (input : GpioIn) :
    Prop :=
  ∃ socket, input.irqchip = some socket ∧
    (nodes.filter fun node => node.phandle = some phandle).map FdtNode.name =
      [irqchipNode s socket]

/-- The M-level APLIC of the input's socket delegates its line to the S-level one that the
guest knows. -/
def Delegates (s : AislabState) (nodes : List FdtNode) (input : GpioIn) : Prop :=
  ∃ socket, input.irqchip = some socket ∧ ∃ node ∈ nodes, node.name = .aplic .m socket ∧
    ∃ link ∈ node.links, ∃ first last, link.property = .delegate first last ∧
      first ≤ input.line ∧ input.line ≤ last ∧ Resolves s nodes link.phandle input

/-- The two ends of each interrupt agree; `mapIrq` gives the output of the PCIe host that a pin
of a function on the root bus drives. -/
structure InterruptRoutes (s : AislabState) (accel : Accelerator) (cpus : Nat)
    (mapIrq : Nat → Nat → Nat) : Prop where
  distinct : ((connections s).map Prod.snd).Nodup
  inputs : ∀ output input, (output, input) ∈ connections s →
    (∃ socket < s.socketCount, input.irqchip = some socket) ∧
      0 < input.line ∧ input.line < aislabIrqchipNumSources
  delegated : s.aiaType ≠ .none → ∀ output input, (output, input) ∈ connections s →
    Delegates s (finalizeFdt s accel cpus).nodes input
  devices : ∀ output name, (output, name) ∈ describedOutputs →
    ∃ input, (output, input) ∈ connections s ∧
      ∃ node ∈ (finalizeFdt s accel cpus).nodes, node.name = name ∧
        node.interrupts = interruptSpec s input.line ∧
        ∃ parent, node.links = [{ property := .interruptParent, phandle := parent }] ∧
          Resolves s (finalizeFdt s accel cpus).nodes parent input
  pci : ∃ node ∈ (finalizeFdt s accel cpus).nodes, node.name = .pci ∧
    ∃ cells, createPcieIrqMapCells s (fdtSockets s accel cpus).irq.pcie = some cells ∧
      node.links.filterMap (IrqMapEntry.ofLink s) = parseIrqMap (irqchipIntCells s) cells ∧
      ∀ slot function pin addrMid addrLow, slot < 32 → function < 8 → pin < 4 →
        ∃ input, (.gpex (mapIrq (pciDevfn slot function) pin), input) ∈ connections s ∧
          ∃ row, lookupIrqMap (parseIrqMap (irqchipIntCells s) cells)
              (pciUnit slot function pin addrMid addrLow) = [row] ∧
            row.specifier = (interruptSpec s input.line).map (BitVec.ofNat 32) ∧
            Resolves s (finalizeFdt s accel cpus).nodes row.parent input

section Routes

variable {s : AislabState} {nodes : List FdtNode}

/-- A phandle that no two nodes have finds its node. -/
theorem filter_phandle {name : NodeName} {phandle : BitVec 32}
    (hdistinct : (phandles nodes).Nodup) (hnamed : Named nodes name phandle) :
    (nodes.filter fun node => node.phandle = some phandle).map FdtNode.name = [name] := by
  obtain ⟨target, htarget, hname, hphandle⟩ := hnamed
  induction nodes with
  | nil => cases htarget
  | cons node rest ih =>
      have hrest : (phandles rest).Nodup := by
        unfold phandles at hdistinct ⊢
        exact hdistinct.sublist ((List.sublist_cons_self node rest).filterMap _)
      have hmem : ∀ other ∈ rest, other.phandle = some phandle → phandle ∈ phandles rest :=
        fun other hother hsame => List.mem_filterMap.mpr ⟨other, hother, hsame⟩
      by_cases hnode : node.phandle = some phandle
      · -- The first node has it, so no later one does.
        have hfresh : phandle ∉ phandles rest := by
          rw [phandles, List.filterMap_cons_some hnode] at hdistinct
          exact (List.nodup_cons.mp hdistinct).1
        have hnone : rest.filter (fun other => other.phandle = some phandle) = [] := by
          rw [List.filter_eq_nil_iff]
          intro other hother hsame
          exact hfresh (hmem other hother (of_decide_eq_true hsame))
        rw [List.filter_cons_of_pos (by simpa using hnode), hnone]
        rcases List.mem_cons.mp htarget with rfl | hlater
        · simp [hname]
        · exact absurd (hmem target hlater hphandle) hfresh
      · rw [List.filter_cons_of_neg (by simpa using hnode)]
        rcases List.mem_cons.mp htarget with rfl | hlater
        · exact absurd hphandle hnode
        · exact ih hrest hlater

theorem resolves_of_wiredTo {chip : Option Nat} {phandle : BitVec 32}
    (hdistinct : (phandles nodes).Nodup) (hwired : WiredTo s nodes chip phandle) (line : Nat) :
    Resolves s nodes phandle { irqchip := chip, line := line } := by
  obtain ⟨socket, hchip, hnamed⟩ := hwired
  exact ⟨socket, hchip, filter_phandle hdistinct hnamed⟩

/-- The inputs are those of the classes of devices. -/
theorem mem_connections {output : IrqOutput} {input : GpioIn}
    (hmem : (output, input) ∈ connections s) :
    (input.irqchip = (machineInitIrqchips s).mmio ∨ input.irqchip = (machineInitIrqchips s).virtio ∨
      input.irqchip = (machineInitIrqchips s).pcie) ∧ 0 < input.line ∧ input.line < 97 := by
  simp only [connections, gpexPcieInit, createPlatformBus, List.mem_append, List.mem_map,
    List.mem_range, List.mem_cons, List.not_mem_nil, or_false, Prod.mk.injEq, gpexNumIrqs,
    aislabPlatformBusNumIrqs] at hmem
  rcases hmem with ((⟨i, hi, -, rfl⟩ | ⟨i, hi, -, rfl⟩) | ⟨i, hi, -, rfl⟩) |
    ⟨-, rfl⟩ | ⟨-, rfl⟩ | ⟨-, rfl⟩
  · exact ⟨Or.inr (Or.inl rfl), by simp only; omega, by simp only; omega⟩
  · exact ⟨Or.inr (Or.inr rfl), by simp only; omega, by simp only; omega⟩
  · exact ⟨Or.inl rfl, by simp only; omega, by simp only; omega⟩
  · exact ⟨Or.inl rfl, by simp only; omega, by simp only; omega⟩
  · exact ⟨Or.inl rfl, by simp only; omega, by simp only; omega⟩
  · exact ⟨Or.inl rfl, by simp only; omega, by simp only; omega⟩

/-- The lines differ already. -/
theorem connections_nodup (s : AislabState) : ((connections s).map Prod.snd).Nodup := by
  have hlines : ((connections s).map Prod.snd).map GpioIn.line =
      (List.range 8).map (1 + ·) ++ (List.range 4).map (0x20 + ·) ++
        (List.range 32).map (64 + ·) ++ [10, 11, 96] := rfl
  refine List.Nodup.of_map GpioIn.line ?_
  rw [hlines]
  decide

/-- Every class of devices has a socket. -/
theorem irqchips_lt (hsockets : 1 ≤ s.socketCount) :
    (∃ socket < s.socketCount, (machineInitIrqchips s).mmio = some socket) ∧
      (∃ socket < s.socketCount, (machineInitIrqchips s).virtio = some socket) ∧
      ∃ socket < s.socketCount, (machineInitIrqchips s).pcie = some socket := by
  obtain ⟨last, hlast⟩ := Nat.exists_eq_add_of_le' hsockets
  rw [machineInitIrqchips, hlast, assignBySocket_eq]
  exact ⟨⟨0, by omega, rfl⟩, ⟨min 1 last, by omega, rfl⟩, ⟨min 2 last, by omega, rfl⟩⟩

theorem connections_inputs (hsockets : 1 ≤ s.socketCount) {output : IrqOutput} {input : GpioIn}
    (hmem : (output, input) ∈ connections s) :
    (∃ socket < s.socketCount, input.irqchip = some socket) ∧
      0 < input.line ∧ input.line < aislabIrqchipNumSources := by
  obtain ⟨hmmio, hvirtio, hpcie⟩ := irqchips_lt hsockets
  obtain ⟨hchip, hline⟩ := mem_connections hmem
  refine ⟨?_, hline⟩
  rcases hchip with hchip | hchip | hchip
  · rw [hchip]
    exact hmmio
  · rw [hchip]
    exact hvirtio
  · rw [hchip]
    exact hpcie

/-- An expected link is there. -/
theorem exists_link {links : List FdtLink} {expected : List (LinkProperty × NodeName)}
    (hlinks : List.Forall₂ (Refers nodes) links expected) {link : LinkProperty × NodeName}
    (hlink : link ∈ expected) : ∃ found ∈ links, Refers nodes found link := by
  induction hlinks with
  | nil => cases hlink
  | cons hfirst hrest ih =>
      rcases List.mem_cons.mp hlink with rfl | hlater
      · exact ⟨_, List.mem_cons_self, hfirst⟩
      · obtain ⟨found, hfound, hrefers⟩ := ih hlater
        exact ⟨found, List.mem_cons_of_mem _ hfound, hrefers⟩

/-- The delegation covers all lines of the board. -/
theorem delegates_of_links (haia : s.aiaType ≠ .none) {socket : Nat} {input : GpioIn}
    (hchip : input.irqchip = some socket) (hline : 0 < input.line ∧ input.line < 97)
    (hnode : NodeName.aplic .m socket ∈ nodes.map FdtNode.name)
    (hlinks : ∀ node ∈ nodes, LinksRight s nodes node) (hdistinct : (phandles nodes).Nodup) :
    Delegates s nodes input := by
  obtain ⟨node, hmem, hname⟩ := List.mem_map.mp hnode
  have hright := hlinks node hmem
  have hexpected : (.delegate 1 aislabIrqchipNumSources, .aplic .s socket) ∈
      expectedLinks s node.name := by
    rw [hname]
    exact List.mem_append_right _ (List.mem_cons_of_mem _ (List.mem_singleton_self _))
  obtain ⟨link, hlink, hproperty, hnamed⟩ := exists_link hright hexpected
  have hchipNode : irqchipNode s socket = .aplic .s socket := if_neg haia
  refine ⟨socket, hchip, node, hmem, hname, link, hlink, 1, aislabIrqchipNumSources, hproperty,
    hline.1, Nat.le_of_lt hline.2, socket, hchip, ?_⟩
  rw [hchipNode]
  exact filter_phandle hdistinct hnamed

/-- The slot of a function. -/
theorem pciSlot_pciDevfn {slot function : Nat} (hslot : slot < 32) (hfunction : function < 8) :
    pciSlot (pciDevfn slot function) = slot := by
  have hmask : (0x1f : Nat) = 2 ^ 5 - 1 := rfl
  rw [pciSlot, pciDevfn, hmask, Nat.and_two_pow_sub_one_eq_mod, Nat.shiftRight_eq_div_pow]
  omega

/-- The row of a slot has the line of the output that its pin drives. -/
theorem irqMapRow_specifier (s : AislabState) (phandle : BitVec 32) (slot pin : Nat) :
    (irqMapRow s phandle (slot % 4) pin).specifier =
      (interruptSpec s (0x20 + (slot + pin) % gpexNumIrqs)).map (BitVec.ofNat 32) := by
  have hdev : pciSlot (slot % 4 * 0x8) = slot % 4 :=
    @pciSlot_pciDevfn (slot % 4) 0 (by omega) (by omega)
  have hswizzle : (pin + slot % 4) % gpexNumIrqs = (slot + pin) % gpexNumIrqs := by
    show (pin + slot % 4) % 4 = (slot + pin) % 4
    omega
  rw [irqMapRow, hdev, hswizzle]

/-- The node of the PCIe host has the rows of the table. -/
theorem pci_node (s : AislabState) (accel : Accelerator) (cpus : Nat) :
    ∃ node ∈ (finalizeFdt s accel cpus).nodes, node.name = .pci ∧
      node.links.filterMap (IrqMapEntry.ofLink s) =
        irqMapRows s (fdtSockets s accel cpus).irq.pcie := by
  rw [(finalizeFdt_fields s accel cpus).1]
  refine ⟨_, List.mem_append_right _ (List.mem_append_right _ List.mem_cons_self), rfl, ?_⟩
  have hmsi : (if s.aiaType = .aplicImsic then
      [({ property := .msiParent, phandle := (fdtSockets s accel cpus).msiPcie } : FdtLink)]
      else []).filterMap (IrqMapEntry.ofLink s) = [] := by
    split <;> rfl
  show (_ ++ createPcieIrqMap (fdtSockets s accel cpus).irq.pcie).filterMap _ = _
  rw [List.filterMap_append, hmsi, List.nil_append, filterMap_createPcieIrqMap]

section Finalized

variable (accel : Accelerator) (hsockets : 1 ≤ s.socketCount)
  (hmax : s.socketCount ≤ aislabSocketsMax)

include hsockets hmax

theorem nodup_phandles_finalizeFdt :
    (phandles (finalizeFdt s accel (firstSlot s s.socketCount)).nodes).Nodup := by
  have hbound := socketPhandles_le s hmax
  rw [(finalizeFdt_sound s accel hsockets hmax).numbered]
  exact (numbered_distinct (by omega)).1

/-- What the controllers' part of the tree names, the whole tree resolves. -/
theorem resolves_finalizeFdt {chip : Option Nat} {phandle : BitVec 32}
    (hwired : WiredTo s (fdtSockets s accel (firstSlot s s.socketCount)).st.nodes chip phandle)
    (line : Nat) :
    Resolves s (finalizeFdt s accel (firstSlot s s.socketCount)).nodes phandle
      { irqchip := chip, line := line } := by
  apply resolves_of_wiredTo (nodup_phandles_finalizeFdt accel hsockets hmax)
  rw [(finalizeFdt_fields s accel (firstSlot s s.socketCount)).1]
  exact hwired.append _

/-- A device whose node names the controller and the line of its output. -/
theorem device_resolves {output : IrqOutput} {name : NodeName} {chip : Option Nat} (line : Nat)
    {parent : BitVec 32} (hmem : (output, { irqchip := chip, line := line }) ∈ connections s)
    (hnode : deviceNode s name parent line ∈ deviceFdtNodes s
      (fdtSockets s accel (firstSlot s s.socketCount)).irq
      (fdtSockets s accel (firstSlot s s.socketCount)).msiPcie
      (fdtSockets s accel (firstSlot s s.socketCount)).st.phandle)
    (hwired : WiredTo s (fdtSockets s accel (firstSlot s s.socketCount)).st.nodes chip parent) :
    ∃ input, (output, input) ∈ connections s ∧
      ∃ node ∈ (finalizeFdt s accel (firstSlot s s.socketCount)).nodes, node.name = name ∧
        node.interrupts = interruptSpec s input.line ∧
        ∃ parent, node.links = [{ property := .interruptParent, phandle := parent }] ∧
          Resolves s (finalizeFdt s accel (firstSlot s s.socketCount)).nodes parent input := by
  refine ⟨_, hmem, deviceNode s name parent line, ?_, rfl, rfl, parent, rfl,
    resolves_finalizeFdt accel hsockets hmax hwired line⟩
  rw [(finalizeFdt_fields s accel (firstSlot s s.socketCount)).1]
  exact List.mem_append_right _ hnode

end Finalized

/-- On a board with one to four sockets, whose harts are those of the machine, the guest
finds for every interrupt the line that the hardware drives, if the PCIe host maps the pins on
its root bus as usual. -/
theorem interruptRoutes {cpus : Nat} (accel : Accelerator) (hsockets : 1 ≤ s.socketCount)
    (hmax : s.socketCount ≤ aislabSocketsMax)
    (hcpus : ((List.range s.socketCount).map (numHarts s)).sum = cpus)
    {mapIrq : Nat → Nat → Nat} (hswizzle : SwizzleMapIrq mapIrq) :
    InterruptRoutes s accel cpus mapIrq := by
  obtain rfl : firstSlot s s.socketCount = cpus := hcpus
  obtain ⟨-, hxplics, -⟩ := fdtSockets_sound s accel hmax
  obtain ⟨hmmio, hvirtio, hpcie⟩ := fdtSockets_wired s accel _ hsockets hxplics
  refine ⟨connections_nodup s, fun _ _ => connections_inputs hsockets, ?_, ?_, ?_⟩
  · intro haia output input hmem
    obtain ⟨⟨socket, hsocket, hchip⟩, hline⟩ := connections_inputs hsockets hmem
    refine delegates_of_links haia hchip hline ?_ (finalizeFdt_sound s accel hsockets hmax).links
      (nodup_phandles_finalizeFdt accel hsockets hmax)
    rw [(finalizeFdt_nodes s accel _).mem_iff, expectedNodes]
    refine List.mem_append_left _ (List.mem_append_right _ ?_)
    refine List.mem_flatMap.mpr ⟨socket, List.mem_range.mpr hsocket, ?_⟩
    rw [irqchipNodes, if_neg haia]
    exact List.mem_cons_self
  · intro output name hmem
    simp only [describedOutputs, List.mem_append, List.mem_map, List.mem_range, List.mem_cons,
      List.not_mem_nil, or_false, Prod.mk.injEq] at hmem
    rcases hmem with ⟨i, hi, rfl, rfl⟩ | ⟨rfl, rfl⟩ | ⟨rfl, rfl⟩ | ⟨rfl, rfl⟩
    · apply device_resolves accel hsockets hmax (1 + i) _ _ hvirtio
      · simp [connections, hi]
      · exact List.mem_append_left _ (List.mem_map.mpr ⟨i, List.mem_range.mpr hi, rfl⟩)
    · exact device_resolves accel hsockets hmax 10 (by simp [connections])
        (by simp [deviceFdtNodes]) hmmio
    · exact device_resolves accel hsockets hmax 11 (by simp [connections])
        (by simp [deviceFdtNodes]) hmmio
    · exact device_resolves accel hsockets hmax 96 (by simp [connections])
        (by simp [deviceFdtNodes]) hmmio
  · have hspecifiers : ∀ row ∈ irqMapRows s
        (fdtSockets s accel (firstSlot s s.socketCount)).irq.pcie,
          row.specifier.length = irqchipIntCells s := by
      intro row hrow
      obtain ⟨dev, pin, rfl⟩ := mem_irqMapRows hrow
      rw [irqMapRow, List.length_map, length_interruptSpec]
    obtain ⟨node, hnode, hname, hrows⟩ := pci_node s accel (firstSlot s s.socketCount)
    refine ⟨node, hnode, hname, _, createPcieIrqMapCells_eq s _, ?_, ?_⟩
    · rw [hrows, parseIrqMap_flatMap hspecifiers]
    · intro slot function pin addrMid addrLow hslot hfunction hpin
      have hdevfn : pciDevfn slot function < 0x100 := by
        unfold pciDevfn
        omega
      have houtput : mapIrq (pciDevfn slot function) pin = (slot + pin) % gpexNumIrqs := by
        rw [hswizzle _ _ hdevfn hpin, pciSlot_pciDevfn hslot hfunction]
      have hline : (slot + pin) % gpexNumIrqs < gpexNumIrqs := Nat.mod_lt _ (by decide)
      rw [houtput]
      refine ⟨{ irqchip := (machineInitIrqchips s).pcie
                line := 0x20 + (slot + pin) % gpexNumIrqs }, ?_, _, ?_,
        irqMapRow_specifier s _ slot pin, resolves_finalizeFdt accel hsockets hmax hpcie _⟩
      · simp [connections, gpexPcieInit, hline]
      · rw [parseIrqMap_flatMap hspecifiers]
        exact lookupIrqMap_rows s _ slot hfunction hpin addrMid addrLow

end Routes

theorem interruptRoutes_unevenBoard :
    InterruptRoutes unevenBoard .tcg 4 fun devfn pin => (pciSlot devfn + pin) % gpexNumIrqs :=
  interruptRoutes .tcg (by decide) (by decide) (by decide) fun _ _ _ _ => rfl

end Board
end AislabVP
