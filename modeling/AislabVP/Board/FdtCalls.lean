import AislabVP.Board.BusOwners
import AislabVP.Foundation.NodePaths

/-!
# The construction of the device tree

`create_fdt`, `create_fdt_virtio_iommu` and `finalize_fdt` again, now as the calls that they make
on the tree, with the names of the nodes as they are printed.  A write stands for a property,
or for a function of QEMU that is given the node.

QEMU exits when a node cannot be added, because its parent is missing or there is one of its
name, and when something is written to a node that is not there.
-/

namespace AislabVP
namespace Board

open Foundation AddressRange

/-! ## The names of nodes -/

/-- The path that is printed for a node. -/
def nodePath (s : AislabState) : NodeName → NodePath
  | .cpu _ hartid => ["cpus", unitName "cpu" (toString hartid)]
  | .intc _ hartid => ["cpus", unitName "cpu" (toString hartid), "interrupt-controller"]
  | .clint socket => ["soc", unitName "clint" (hexText (clintAddr socket))]
  | .mswi socket => ["soc", unitName "mswi" (hexText (clintAddr socket))]
  | .mtimer socket => ["soc", unitName "mtimer" (hexText (mtimerEntry s socket).base)]
  | .sswi socket => ["soc", unitName "sswi" (hexText (socketEntry .aclintSswi socket).base)]
  | .plic socket => ["soc", unitName "plic" (hexText (socketEntry .plic socket).base)]
  | .aplic level socket =>
      ["soc", unitName "aplic" (hexText (socketEntry (aplicEntry level) socket).base)]
  | .imsics level => ["soc", unitName "imsics" (hexText (imsicEntry level).base)]
  | .virtioMmio index =>
      ["soc", unitName "virtio_mmio"
        (hexText ((aislabMemmap .virtio).base + index * (aislabMemmap .virtio).size))]
  | .pci => ["soc", unitName "pci" (hexText (aislabMemmap .pcieEcam).base)]
  | .test => ["soc", unitName "test" (hexText (aislabMemmap .test).base)]
  | .serial => ["soc", unitName "serial" (hexText (aislabMemmap .uart0).base)]
  | .rtc => ["soc", unitName "rtc" (hexText (aislabMemmap .rtc).base)]
  | .mmioBus => ["soc", unitName "mmio_bus" (hexText (aislabMemmap .mmioBus).base)]

/-- `clust_name`. -/
def clusterPath (socket : Nat) : NodePath := ["cpus", "cpu-map", numberedName "cluster" socket]

/-- `core_name`. -/
def corePath (hart : Hart) : NodePath :=
  ["cpus", "cpu-map", numberedName "cluster" hart.socket, numberedName "core" hart.cpu]

/-- `mem_name`. -/
def memoryPath {s : AislabState} (mem : SocketMemory s) (socket : Nat) : NodePath :=
  [unitName "memory" (hexText (mem.range socket).base)]

/-- The name of the flash. -/
def flashPath : NodePath := [unitName "flash" (hexText (aislabMemmap .flash).base)]

/-- The name of the fw-cfg. -/
def fwCfgPath : NodePath := [unitName "fw-cfg" (hexText (aislabMemmap .fwCfg).base)]

/-- `iommu_node`: `PCI_SLOT` and `PCI_FUNC` of the function. -/
def iommuPath (s : AislabState) (bdf : BitVec 16) : NodePath :=
  nodePath s .pci ++
    [unitName "virtio_iommu" (hexText (bdf.toNat / 8 % 32) ++ "," ++ hexText (bdf.toNat % 8))]

/-! ## `create_fdt` -/

section Calls

variable (s : AislabState)

/-- `create_fdt_flash`. -/
def createFdtFlashCalls : List TreeCall := newNode flashPath ["compatible", "reg", "bank-width"]

/-- `create_fdt_fw_cfg`. -/
def createFdtFwCfgCalls : List TreeCall := newNode fwCfgPath ["compatible", "reg", "dma-coherent"]

/-- `create_fdt_pmu`. -/
def createFdtPmuCalls : List TreeCall :=
  newNode ["pmu"] ["compatible", "riscv_pmu_generate_fdt_node"]

/-- `create_fdt`. -/
def createFdtCalls : List TreeCall :=
  ["model", "compatible", "#size-cells", "#address-cells"].map (.write []) ++
    newNode ["soc"] ["ranges", "compatible", "#size-cells", "#address-cells"] ++
    newNode (nodePath s .pci) [] ++
    newNode ["chosen"] ["rng-seed"] ++
    createFdtFlashCalls ++ createFdtFwCfgCalls ++ createFdtPmuCalls

/-- `create_fdt_virtio_iommu`. -/
def createFdtVirtioIommuCalls (bdf : BitVec 16) : List TreeCall :=
  newNode (iommuPath s bdf) ["compatible", "reg", "#iommu-cells", "phandle"] ++
    [.write (nodePath s .pci) "iommu-map"]

/-! ## `create_fdt_sockets` -/

/-- What the functions read of a hart. -/
structure HartConfig where
  satpModeSupported : Bool
  extZicbom : Bool
  extZicboz : Bool
  extZicbop : Bool

/-- What is written to the node of a hart. -/
def cpuWrites (config : HartConfig) : List String :=
  (if config.satpModeSupported then ["mmu-type"] else []) ++ ["riscv_isa_write_fdt"] ++
    (if config.extZicbom then ["riscv,cbom-block-size"] else []) ++
    (if config.extZicboz then ["riscv,cboz-block-size"] else []) ++
    (if config.extZicbop then ["riscv,cbop-block-size"] else []) ++
    ["compatible", "status", "reg", "device_type", "riscv_socket_fdt_write_id", "phandle"]

/-- A turn of the loop of `create_fdt_socket_cpus`. -/
def createFdtCpuCalls (config : Hart → HartConfig) (hart : Hart) : List TreeCall :=
  newNode (nodePath s (.cpu hart (hartid s hart))) (cpuWrites (config hart)) ++
    newNode (nodePath s (.intc hart (hartid s hart)))
      ["phandle", "compatible", "interrupt-controller", "#interrupt-cells"] ++
    newNode (corePath hart) ["cpu"]

/-- `create_fdt_socket_cpus`: the loop runs downwards. -/
def createFdtSocketCpusCalls (config : Hart → HartConfig) (socket : Nat) : List TreeCall :=
  (socketHarts s socket).reverse.flatMap (createFdtCpuCalls s config)

/-- `create_fdt_socket_memory`. -/
def createFdtSocketMemoryCalls {s : AislabState} (mem : SocketMemory s) (socket : Nat) :
    List TreeCall :=
  newNode (memoryPath mem socket) ["reg", "device_type", "riscv_socket_fdt_write_id"]

/-- `create_fdt_socket_clint`. -/
def createFdtSocketClintCalls (socket : Nat) : List TreeCall :=
  newNode (nodePath s (.clint socket))
    ["compatible", "reg", "interrupts-extended", "riscv_socket_fdt_write_id"]

/-- What `create_fdt_socket_aclint` writes to an MSWI or an SSWI. -/
def swiWrites : List String :=
  ["compatible", "reg", "interrupts-extended", "interrupt-controller", "#interrupt-cells",
    "riscv_socket_fdt_write_id"]

/-- `create_fdt_socket_aclint`. -/
def createFdtSocketAclintCalls (socket : Nat) : List TreeCall :=
  (if s.aiaType ≠ .aplicImsic then newNode (nodePath s (.mswi socket)) swiWrites else []) ++
    newNode (nodePath s (.mtimer socket))
      ["compatible", "reg", "interrupts-extended", "riscv_socket_fdt_write_id"] ++
    (if s.aiaType ≠ .aplicImsic then newNode (nodePath s (.sswi socket)) swiWrites else [])

/-- The choice of the timers in `create_fdt_sockets`. -/
def socketTimersCalls (accel : Accelerator) (socket : Nat) : List TreeCall :=
  if aislabAclintAllowed accel && s.haveAclint then createFdtSocketAclintCalls s socket
  else if tcgEnabled accel then createFdtSocketClintCalls s socket
  else []

/-- A turn of the first loop of `create_fdt_sockets`. -/
def socketCalls (accel : Accelerator) (config : Hart → HartConfig) (mem : SocketMemory s)
    (socket : Nat) : List TreeCall :=
  newNode (clusterPath socket) [] ++ createFdtSocketCpusCalls s config socket ++
    createFdtSocketMemoryCalls mem socket ++ socketTimersCalls s accel socket

/-- `platform_bus_add_all_fdt_nodes`, which is called for the first socket. -/
def platformBusCalls (socket : Nat) (path : NodePath) : List TreeCall :=
  if socket = 0 then [.write path "platform_bus_add_all_fdt_nodes"] else []

/-- `create_fdt_socket_plic`. -/
def createFdtSocketPlicCalls (socket : Nat) : List TreeCall :=
  newNode (nodePath s (.plic socket))
      ["#interrupt-cells", "#address-cells", "compatible", "interrupt-controller",
        "interrupts-extended", "reg", "riscv,ndev", "riscv_socket_fdt_write_id", "phandle"] ++
    platformBusCalls socket (nodePath s (.plic socket))

/-- `create_fdt_one_imsic`. -/
def createFdtOneImsicCalls (level : Level) (guestBits : Nat) : List TreeCall :=
  newNode (nodePath s (.imsics level))
    (["compatible", "#interrupt-cells", "interrupt-controller", "msi-controller",
        "interrupts-extended", "reg", "riscv,num-ids"] ++
      (if guestBits ≠ 0 then ["riscv,guest-index-bits"] else []) ++
      (if s.socketCount > 1 then
        ["riscv,hart-index-bits", "riscv,group-index-bits", "riscv,group-index-shift"]
      else []) ++ ["phandle"])

/-- `create_fdt_imsic`. -/
def createFdtImsicCalls : List TreeCall :=
  createFdtOneImsicCalls s .m 0 ++
    createFdtOneImsicCalls s .s (aislabImsicNumBits (s.aiaGuests + 1))

/-- `create_fdt_one_aplic`; only the M-level one has a child. -/
def createFdtOneAplicCalls (level : Level) (socket : Nat) : List TreeCall :=
  newNode (nodePath s (.aplic level socket))
    (["compatible", "#interrupt-cells", "interrupt-controller"] ++
      (if s.aiaType = .aplic then ["interrupts-extended"] else ["msi-parent"]) ++
      ["reg", "riscv,num-sources"] ++
      (if level = .m then ["riscv,children", "riscv,delegate"] else []) ++
      ["riscv_socket_fdt_write_id", "phandle"])

/-- `create_fdt_socket_aplic`. -/
def createFdtSocketAplicCalls (socket : Nat) : List TreeCall :=
  createFdtOneAplicCalls s .m socket ++ createFdtOneAplicCalls s .s socket ++
    platformBusCalls socket (nodePath s (.aplic .s socket))

/-- A turn of the second loop of `create_fdt_sockets`. -/
def socketXplicCalls (socket : Nat) : List TreeCall :=
  if s.aiaType = .none then createFdtSocketPlicCalls s socket
  else createFdtSocketAplicCalls s socket

/-- `create_fdt_sockets`; both loops run downwards. -/
def createFdtSocketsCalls (accel : Accelerator) (config : Hart → HartConfig)
    (mem : SocketMemory s) : List TreeCall :=
  newNode ["cpus"] ["timebase-frequency", "#size-cells", "#address-cells"] ++
    newNode ["cpus", "cpu-map"] [] ++
    (List.range s.socketCount).reverse.flatMap (socketCalls s accel config mem) ++
    (if s.aiaType = .aplicImsic then createFdtImsicCalls s else []) ++
    (List.range s.socketCount).reverse.flatMap (socketXplicCalls s) ++
    [.write [] "riscv_socket_fdt_write_distance_matrix"]

/-! ## `finalize_fdt` -/

/-- What is written to a device with an interrupt. -/
def deviceWrites : List String := ["compatible", "reg", "interrupt-parent", "interrupts"]

/-- `create_fdt_virtio`. -/
def createFdtVirtioCalls : List TreeCall :=
  (List.range 8).flatMap fun index => newNode (nodePath s (.virtioMmio index)) deviceWrites

/-- `create_fdt_pcie` with `create_pcie_irq_map`.  The node is there since `create_fdt`. -/
def createFdtPcieCalls : List TreeCall :=
  (["#address-cells", "#interrupt-cells", "#size-cells", "compatible", "device_type",
      "linux,pci-domain", "bus-range", "dma-coherent"] ++
    (if s.aiaType = .aplicImsic then ["msi-parent"] else []) ++
    ["reg", "ranges", "interrupt-map", "interrupt-map-mask"]).map (.write (nodePath s .pci))

/-- `create_fdt_reset`. -/
def createFdtResetCalls : List TreeCall :=
  newNode (nodePath s .test) ["compatible", "reg", "phandle", "qemu_fdt_get_phandle"] ++
    newNode ["reboot"] ["compatible", "regmap", "offset", "value"] ++
    newNode ["poweroff"] ["compatible", "regmap", "offset", "value"]

/-- `create_fdt_uart`. -/
def createFdtUartCalls : List TreeCall :=
  newNode (nodePath s .serial)
      ["compatible", "reg", "clock-frequency", "interrupt-parent", "interrupts"] ++
    [.write ["chosen"] "stdout-path"]

/-- `create_fdt_rtc`. -/
def createFdtRtcCalls : List TreeCall := newNode (nodePath s .rtc) deviceWrites

/-- `create_fdt_mmio_bus`. -/
def createFdtMmioBusCalls : List TreeCall := newNode (nodePath s .mmioBus) deviceWrites

/-- `finalize_fdt`. -/
def finalizeFdtCalls (accel : Accelerator) (config : Hart → HartConfig) (mem : SocketMemory s) :
    List TreeCall :=
  createFdtSocketsCalls s accel config mem ++ createFdtVirtioCalls s ++ createFdtPcieCalls s ++
    createFdtResetCalls s ++ createFdtUartCalls s ++ createFdtRtcCalls s ++
    createFdtMmioBusCalls s

/-- The life of the tree: `create_fdt`, the IOMMUs that are plugged, and `finalize_fdt`. -/
def fdtCalls (accel : Accelerator) (config : Hart → HartConfig) (mem : SocketMemory s)
    (plugged : List (BitVec 16)) : List TreeCall :=
  createFdtCalls s ++ plugged.flatMap (createFdtVirtioIommuCalls s) ++
    finalizeFdtCalls s accel config mem

end Calls

end Board
end AislabVP
