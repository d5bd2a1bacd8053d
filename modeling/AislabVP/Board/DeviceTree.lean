import AislabVP.Board.MemMap
import AislabVP.Foundation.Slots
import Mathlib.Logic.Function.Basic

/-!
# The device tree of the board

`finalize_fdt` and the functions it calls, without KVM, as far as they write phandles, links
between nodes, the interrupts of devices, and the properties that describe the IMSICs.  A node
is known by what it stands for; the addresses in the source's node names are those of the map.

The functions share a counter of phandles and the array `intc_phandles`, of which a function
gets the part that begins at its socket: an index below is one into the whole array.  All
accesses to the array are recorded.
-/

namespace AislabVP
namespace Board

open Foundation

/-! ## What QEMU provides -/

/-- The accelerators without KVM. -/
inductive Accelerator where
  | tcg
  | qtest
  deriving DecidableEq, Repr

/-- `tcg_enabled`. -/
def tcgEnabled (accel : Accelerator) : Bool := accel == .tcg

/-- `qtest_enabled`. -/
def qtestEnabled (accel : Accelerator) : Bool := accel == .qtest

/-- `aislab_aclint_allowed`. -/
def aislabAclintAllowed (accel : Accelerator) : Bool := tcgEnabled accel || qtestEnabled accel

/-- The privilege levels of interrupt controllers. -/
inductive Level where
  | m
  | s
  deriving DecidableEq, Repr

/-- The local interrupts of a hart. -/
inductive Irq where
  | mSoft
  | sSoft
  | mTimer
  | mExt
  | sExt
  deriving DecidableEq, Repr

/-- `m_mode ? IRQ_M_EXT : IRQ_S_EXT`. -/
def Level.externalIrq : Level → Irq
  | .m => .mExt
  | .s => .sExt

/-- `IMSIC_MMIO_GROUP_MIN_SHIFT`. -/
def imsicMmioGroupMinShift : Nat := 24

/-- `GPEX_NUM_IRQS`. -/
def gpexNumIrqs : Nat := 4

/-! ## The harts -/

/-- `s->soc[socket].harts[cpu]`. -/
structure Hart where
  socket : Nat
  cpu : Nat
  deriving DecidableEq, Repr

/-- `s->soc[socket].num_harts`, which `aislab_machine_init` has set. -/
def numHarts (s : AislabState) (socket : Nat) : Nat := (s.hartCount socket).toNat

/-- `s->soc[socket].hartid_base + cpu`. -/
def hartid (s : AislabState) (hart : Hart) : Int := s.firstHartid hart.socket + hart.cpu

/-! ## Nodes -/

/-- What a node stands for. -/
inductive NodeName where
  /-- `/cpus/cpu@%d`, with the hartid that is printed. -/
  | cpu (hart : Hart) (hartid : Int)
  /-- The `interrupt-controller` below it. -/
  | intc (hart : Hart) (hartid : Int)
  | clint (socket : Nat)
  | mswi (socket : Nat)
  | mtimer (socket : Nat)
  | sswi (socket : Nat)
  | plic (socket : Nat)
  | aplic (level : Level) (socket : Nat)
  | imsics (level : Level)
  | virtioMmio (index : Nat)
  | pci
  | test
  | serial
  | rtc
  | mmioBus
  deriving DecidableEq, Repr

/-- The properties whose cells hold the phandle of another node, with the cells beside it. -/
inductive LinkProperty where
  | interruptsExtended (irq : Irq)
  | msiParent
  | children
  | delegate (firstSource numSources : Nat)
  | interruptParent
  | interruptMap (devfn pin irq : Nat)
  deriving DecidableEq, Repr

/-- A cell that holds a phandle. -/
structure FdtLink where
  property : LinkProperty
  phandle : BitVec 32
  deriving DecidableEq, Repr

/-- The properties of an IMSIC node that describe its addresses. -/
structure ImsicProps where
  reg : List (BitVec 32)
  guestIndexBits : Option Nat
  hartIndexBits : Option Nat
  groupIndexBits : Option Nat
  groupIndexShift : Option Nat
  deriving DecidableEq, Repr

/-- A node of the device tree. -/
structure FdtNode where
  name : NodeName
  phandle : Option (BitVec 32)
  links : List FdtLink
  interrupts : List Nat
  imsic : Option ImsicProps

/-- A node that devices do not refer to. -/
def FdtNode.plain (name : NodeName) (links : List FdtLink) (interrupts : List Nat) : FdtNode where
  name := name
  phandle := none
  links := links
  interrupts := interrupts
  imsic := none

/-- A node with a phandle. -/
def FdtNode.target (name : NodeName) (phandle : BitVec 32) (links : List FdtLink) : FdtNode where
  name := name
  phandle := some phandle
  links := links
  interrupts := []
  imsic := none

/-! ## The state of `finalize_fdt` -/

/-- The counter, the arrays of `create_fdt_sockets`, and the tree. -/
structure FdtState where
  phandle : BitVec 32
  intcPhandles : Int → BitVec 32
  xplicPhandles : Nat → BitVec 32
  accesses : List SlotAccess
  nodes : List FdtNode

namespace FdtState

/-- The increment of `(*phandle)++`. -/
def nextPhandle (st : FdtState) : FdtState := { st with phandle := st.phandle + 1 }

/-- The properties of a node that has been added. -/
def addNode (st : FdtState) (node : FdtNode) : FdtState :=
  { st with nodes := st.nodes ++ [node] }

/-- An assignment to a slot of `intc_phandles`. -/
def writeSlot (st : FdtState) (index : Int) (value : BitVec 32) : FdtState :=
  { st with
    intcPhandles := Function.update st.intcPhandles index value
    accesses := st.accesses ++ [.write index] }

/-- Reads of slots of `intc_phandles`. -/
def readSlots (st : FdtState) (indices : List Int) : FdtState :=
  { st with accesses := st.accesses ++ indices.map .read }

/-- An assignment to `xplic_phandles[socket]`. -/
def setXplic (st : FdtState) (socket : Nat) (value : BitVec 32) : FdtState :=
  { st with xplicPhandles := Function.update st.xplicPhandles socket value }

end FdtState

/-- The slots that a loop over harts reads, with a number of reads for each. -/
def cellSlots (pos : Int) (harts reads : Nat) : List Int :=
  (List.range harts).flatMap fun (cpu : Nat) => List.replicate reads (pos + cpu)

/-- The cells that a loop over harts writes, with some interrupts for each. -/
def interruptCells (st : FdtState) (pos : Int) (harts : Nat) (irqs : List Irq) : List FdtLink :=
  (List.range harts).flatMap fun (cpu : Nat) =>
    irqs.map fun irq =>
      { property := .interruptsExtended irq, phandle := st.intcPhandles (pos + cpu) }

/-! ## The nodes of a socket -/

/-- One turn of the loop of `create_fdt_socket_cpus`. -/
def createFdtCpu (s : AislabState) (socket : Nat) (pos : Int) (cpu : Nat) (st : FdtState) :
    FdtState :=
  let hart : Hart := { socket := socket, cpu := cpu }
  let cpuPhandle := st.phandle
  let st := st.nextPhandle
  let st := st.addNode (.target (.cpu hart (hartid s hart)) cpuPhandle [])
  let st := (st.writeSlot (pos + cpu) st.phandle).nextPhandle
  -- The property of the node is read from the slot.
  let st := st.readSlots [pos + cpu]
  st.addNode (.target (.intc hart (hartid s hart)) (st.intcPhandles (pos + cpu)) [])

/-- `create_fdt_socket_cpus`: the loop runs downwards. -/
def createFdtSocketCpus (s : AislabState) (socket : Nat) (pos : Int) : Nat → FdtState → FdtState
  | 0, st => st
  | cpu + 1, st => createFdtSocketCpus s socket pos cpu (createFdtCpu s socket pos cpu st)

/-- `create_fdt_socket_clint`. -/
def createFdtSocketClint (s : AislabState) (socket : Nat) (pos : Int) (st : FdtState) : FdtState :=
  let harts := numHarts s socket
  (st.readSlots (cellSlots pos harts 2)).addNode
    (.plain (.clint socket) (interruptCells st pos harts [.mSoft, .mTimer]) [])

/-- `create_fdt_socket_aclint`. -/
def createFdtSocketAclint (s : AislabState) (socket : Nat) (pos : Int) (st : FdtState) :
    FdtState :=
  let harts := numHarts s socket
  let mswi := FdtNode.plain (.mswi socket) (interruptCells st pos harts [.mSoft]) []
  let mtimer := FdtNode.plain (.mtimer socket) (interruptCells st pos harts [.mTimer]) []
  let sswi := FdtNode.plain (.sswi socket) (interruptCells st pos harts [.sSoft]) []
  let st := st.readSlots (cellSlots pos harts 3)
  let st := if s.aiaType ≠ .aplicImsic then st.addNode mswi else st
  let st := st.addNode mtimer
  if s.aiaType ≠ .aplicImsic then st.addNode sswi else st

/-- The first loop of `create_fdt_sockets`, which runs downwards, from a value of
`phandle_pos`. -/
def createFdtSocketsCpus (s : AislabState) (accel : Accelerator) :
    Int → Nat → FdtState → FdtState
  | _, 0, st => st
  | pos, socket + 1, st =>
      let pos := pos - numHarts s socket
      let st := createFdtSocketCpus s socket pos (numHarts s socket) st
      let st :=
        if aislabAclintAllowed accel && s.haveAclint then createFdtSocketAclint s socket pos st
        else if tcgEnabled accel then createFdtSocketClint s socket pos st
        else st
      createFdtSocketsCpus s accel pos socket st

/-! ## The interrupt controllers -/

/-- The entry of the map for the IMSICs of a level. -/
def imsicEntry : Level → MemMapEntry
  | .m => aislabMemmap .imsicM
  | .s => aislabMemmap .imsicS

/-- `imsic_max_hart_per_socket`. -/
def imsicMaxHartPerSocket (s : AislabState) : Nat :=
  (List.range s.socketCount).foldl
    (fun most socket => if most < numHarts s socket then numHarts s socket else most) 0

/-- `imsic_regs`.  The addresses and sizes have 32 bits. -/
def imsicRegs (s : AislabState) (baseAddr guestBits : Nat) : List (BitVec 32) :=
  (List.range s.socketCount).flatMap fun socket =>
    [0, BitVec.ofNat 32 (baseAddr + socket * aislabImsicGroupMaxSize),
      0, BitVec.ofNat 32 (imsicHartSize guestBits * numHarts s socket)]

/-- The properties that `create_fdt_one_imsic` writes. -/
def imsicProps (s : AislabState) (baseAddr guestBits : Nat) : ImsicProps where
  reg := imsicRegs s baseAddr guestBits
  guestIndexBits := if guestBits ≠ 0 then some guestBits else none
  hartIndexBits :=
    if s.socketCount > 1 then some (aislabImsicNumBits (imsicMaxHartPerSocket s)) else none
  groupIndexBits :=
    if s.socketCount > 1 then some (aislabImsicNumBits s.socketCount) else none
  groupIndexShift := if s.socketCount > 1 then some imsicMmioGroupMinShift else none

/-- `create_fdt_one_imsic`; `cpus` is `ms->smp.cpus`. -/
def createFdtOneImsic (s : AislabState) (cpus : Nat) (level : Level) (msiPhandle : BitVec 32)
    (guestBits : Nat) (st : FdtState) : FdtState :=
  (st.readSlots (cellSlots 0 cpus 1)).addNode
    { name := .imsics level
      phandle := some msiPhandle
      links := interruptCells st 0 cpus [level.externalIrq]
      interrupts := []
      imsic := some (imsicProps s (imsicEntry level).base guestBits) }

/-- `create_fdt_imsic`: the tree, `msi_m_phandle` and `msi_s_phandle`. -/
def createFdtImsic (s : AislabState) (cpus : Nat) (st : FdtState) :
    FdtState × BitVec 32 × BitVec 32 :=
  let msiM := st.phandle
  let st := st.nextPhandle
  let msiS := st.phandle
  let st := st.nextPhandle
  let st := createFdtOneImsic s cpus .m msiM 0 st
  let st := createFdtOneImsic s cpus .s msiS (aislabImsicNumBits (s.aiaGuests + 1)) st
  (st, msiM, msiS)

/-- `create_fdt_socket_plic`. -/
def createFdtSocketPlic (s : AislabState) (socket : Nat) (pos : Int) (st : FdtState) : FdtState :=
  let harts := numHarts s socket
  let plicPhandle := st.phandle
  let st := (st.nextPhandle).setXplic socket plicPhandle
  (st.readSlots (cellSlots pos harts 2)).addNode
    (.target (.plic socket) (st.xplicPhandles socket) (interruptCells st pos harts [.mExt, .sExt]))

/-- `AISLAB_IRQCHIP_NUM_SOURCES`. -/
def aislabIrqchipNumSources : Nat := 97

/-- `create_fdt_one_aplic`. -/
def createFdtOneAplic (s : AislabState) (socket : Nat) (level : Level) (pos : Int) (harts : Nat)
    (msiPhandle aplicPhandle childPhandle : BitVec 32) (st : FdtState) : FdtState :=
  let upstream :=
    if s.aiaType = .aplic then interruptCells st pos harts [level.externalIrq]
    else [{ property := .msiParent, phandle := msiPhandle }]
  let downstream : List FdtLink :=
    if childPhandle ≠ 0 then
      [{ property := .children, phandle := childPhandle },
        { property := .delegate 1 aislabIrqchipNumSources, phandle := childPhandle }]
    else []
  (st.readSlots (cellSlots pos harts 1)).addNode
    (.target (.aplic level socket) aplicPhandle (upstream ++ downstream))

/-- `create_fdt_socket_aplic`. -/
def createFdtSocketAplic (s : AislabState) (socket : Nat) (pos : Int)
    (msiM msiS : BitVec 32) (harts : Nat) (st : FdtState) : FdtState :=
  let aplicM := st.phandle
  let st := st.nextPhandle
  let aplicS := st.phandle
  let st := st.nextPhandle
  let st := createFdtOneAplic s socket .m pos harts msiM aplicM aplicS st
  let st := createFdtOneAplic s socket .s pos harts msiS aplicS 0 st
  st.setXplic socket aplicS

/-- The second loop of `create_fdt_sockets`. -/
def createFdtSocketsXplic (s : AislabState) (msiM msiS : BitVec 32) :
    Int → Nat → FdtState → FdtState
  | _, 0, st => st
  | pos, socket + 1, st =>
      let pos := pos - numHarts s socket
      let st :=
        if s.aiaType = .none then createFdtSocketPlic s socket pos st
        else createFdtSocketAplic s socket pos msiM msiS (numHarts s socket) st
      createFdtSocketsXplic s msiM msiS pos socket st

/-! ## The choice of an interrupt controller for each class of devices -/

/-- One value for the MMIO, one for the VirtIO and one for the PCIe devices. -/
structure Wiring (Value : Type*) where
  mmio : Value
  virtio : Value
  pcie : Value

/-- The three conditional assignments of a turn of the loop. -/
def Wiring.assign {Value : Type*} (chip : Nat → Value) (wiring : Wiring Value) (i : Nat) :
    Wiring Value :=
  let wiring :=
    if i = 0 then { mmio := chip i, virtio := chip i, pcie := chip i } else wiring
  let wiring := if i = 1 then { wiring with virtio := chip i, pcie := chip i } else wiring
  if i = 2 then { wiring with pcie := chip i } else wiring

/-- The assignments for a number of sockets. -/
def assignBySocket {Value : Type*} (chip : Nat → Value) (socketCount : Nat)
    (initial : Wiring Value) : Wiring Value :=
  (List.range socketCount).foldl (Wiring.assign chip) initial

/-- `mmio_irqchip`, `virtio_irqchip` and `pcie_irqchip` of `aislab_machine_init`: the socket
`i` whose `s->irqchip[i]` it is. -/
def machineInitIrqchips (s : AislabState) : Wiring (Option Nat) :=
  assignBySocket some s.socketCount { mmio := none, virtio := none, pcie := none }

/-! ## `create_fdt_sockets` -/

/-- What `create_fdt_sockets` returns through its pointers. -/
structure SocketsResult where
  st : FdtState
  irq : Wiring (BitVec 32)
  msiPcie : BitVec 32

/-- `create_fdt_sockets`, with the values that its pointers had before. -/
def createFdtSockets (s : AislabState) (accel : Accelerator) (cpus : Nat)
    (irq : Wiring (BitVec 32)) (msiPcie : BitVec 32) (st : FdtState) : SocketsResult :=
  let st := createFdtSocketsCpus s accel cpus s.socketCount st
  if s.aiaType = .aplicImsic then
    let msi := createFdtImsic s cpus st
    let st := createFdtSocketsXplic s msi.2.1 msi.2.2 cpus s.socketCount msi.1
    { st := st, irq := assignBySocket st.xplicPhandles s.socketCount irq, msiPcie := msi.2.2 }
  else
    let st := createFdtSocketsXplic s 0 0 cpus s.socketCount st
    { st := st, irq := assignBySocket st.xplicPhandles s.socketCount irq, msiPcie := msiPcie }

/-! ## The devices -/

/-- The cells of an `interrupts` property. -/
def interruptSpec (s : AislabState) (irq : Nat) : List Nat :=
  if s.aiaType = .none then [irq] else [irq, 4]

/-- A device with an `interrupt-parent`. -/
def deviceNode (s : AislabState) (name : NodeName) (parent : BitVec 32) (irq : Nat) : FdtNode :=
  .plain name [{ property := .interruptParent, phandle := parent }] (interruptSpec s irq)

/-- `create_fdt_virtio`. -/
def createFdtVirtio (s : AislabState) (irqVirtio : BitVec 32) (st : FdtState) : FdtState :=
  (List.range 8).foldl
    (fun st i => st.addNode (deviceNode s (.virtioMmio i) irqVirtio (1 + i))) st

/-- `create_pcie_irq_map`. -/
def createPcieIrqMap (irqchipPhandle : BitVec 32) : List FdtLink :=
  (List.range gpexNumIrqs).flatMap fun dev =>
    (List.range gpexNumIrqs).map fun pin =>
      { property := .interruptMap (dev * 8) (pin + 1) (0x20 + (pin + dev) % gpexNumIrqs)
        phandle := irqchipPhandle }

/-- `create_fdt_pcie`. -/
def createFdtPcie (s : AislabState) (irqPcie msiPcie : BitVec 32) (st : FdtState) : FdtState :=
  let msi : List FdtLink :=
    if s.aiaType = .aplicImsic then [{ property := .msiParent, phandle := msiPcie }] else []
  st.addNode (.plain .pci (msi ++ createPcieIrqMap irqPcie) [])

/-- `create_fdt_reset`. -/
def createFdtReset (st : FdtState) : FdtState :=
  let testPhandle := st.phandle
  (st.nextPhandle).addNode (.target .test testPhandle [])

/-- `create_fdt_uart`. -/
def createFdtUart (s : AislabState) (irqMmio : BitVec 32) (st : FdtState) : FdtState :=
  st.addNode (deviceNode s .serial irqMmio 10)

/-- `create_fdt_rtc`. -/
def createFdtRtc (s : AislabState) (irqMmio : BitVec 32) (st : FdtState) : FdtState :=
  st.addNode (deviceNode s .rtc irqMmio 11)

/-- `create_fdt_mmio_bus`. -/
def createFdtMmioBus (s : AislabState) (irqMmio : BitVec 32) (st : FdtState) : FdtState :=
  st.addNode (deviceNode s .mmioBus irqMmio 96)

/-- The state in which `finalize_fdt` begins.  `intc_phandles` is zeroed when it is
allocated, and `xplic_phandles` is not read before it is written. -/
def initialFdt : FdtState where
  phandle := 1
  intcPhandles := fun _ => 0
  xplicPhandles := fun _ => 0
  accesses := []
  nodes := []

/-- `create_fdt_sockets` as `finalize_fdt` calls it. -/
def fdtSockets (s : AislabState) (accel : Accelerator) (cpus : Nat) : SocketsResult :=
  createFdtSockets s accel cpus { mmio := 1, virtio := 1, pcie := 1 } 1 initialFdt

/-- `finalize_fdt`. -/
def finalizeFdt (s : AislabState) (accel : Accelerator) (cpus : Nat) : FdtState :=
  let sockets := fdtSockets s accel cpus
  let st := createFdtVirtio s sockets.irq.virtio sockets.st
  let st := createFdtPcie s sockets.irq.pcie sockets.msiPcie st
  let st := createFdtReset st
  let st := createFdtUart s sockets.irq.mmio st
  let st := createFdtRtc s sockets.irq.mmio st
  createFdtMmioBus s sockets.irq.mmio st

end Board
end AislabVP
