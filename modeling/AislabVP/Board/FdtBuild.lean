import AislabVP.Board.FdtCalls
import AislabVP.Board.TreeLinks
import Mathlib.Data.Multiset.Bind
import Mathlib.Tactic.Abel

/-!
# The device tree can be built

No call of the construction fails for a missing node (`grounded_fdtCalls`).  The nodes are those
of `finalizeFdt` and a few others (`addedPaths_finalizeFdt`), and their names are different except
in three cases: two harts have one hartid, two IOMMUs have one slot and function, or a socket
without memory stands before another one, as its memory node has the address of the next
(`fdtBuilds_iff`).
-/

namespace AislabVP
namespace Board

open Foundation AddressRange

/-! ## No node is missing -/

section Grounded

variable {s : AislabState} {tree : List NodePath}

/-- A node of the bus. -/
theorem grounded_onBus {name : String} (hsoc : Known tree ["soc"]) (writes : List String) :
    Grounded tree (newNode ["soc", name] writes) :=
  grounded_newNode hsoc writes

/-- A node below the root. -/
theorem grounded_onRoot (name : String) (writes : List String) :
    Grounded tree (newNode [name] writes) :=
  grounded_newNode (.inl rfl) writes

theorem grounded_ite {condition : Prop} [Decidable condition] {yes no : List TreeCall}
    (hyes : condition → Grounded tree yes) (hno : ¬condition → Grounded tree no) :
    Grounded tree (if condition then yes else no) := by
  split
  · exact hyes ‹_›
  · exact hno ‹_›

theorem grounded_createFdt : Grounded [] (createFdtCalls s) := by
  have hsoc : ∀ more, Known (([] ++ ["soc"] :: more : List NodePath)) ["soc"] :=
    fun more => .inr List.mem_cons_self
  simp only [createFdtCalls, createFdtFlashCalls, createFdtFwCfgCalls, createFdtPmuCalls]
  refine ((((((grounded_append _ _).mpr ⟨Grounded.append (grounded_writes (.inl rfl) _)
    (grounded_onRoot _ _), ?_⟩).append (grounded_onRoot _ _)).append
      (grounded_onRoot _ _)).append (grounded_onRoot _ _)).append (grounded_onRoot _ _))
  exact grounded_onBus (.inr (by simp)) _

theorem known_createFdt :
    Known (addedPaths (createFdtCalls s)) ["soc"] ∧
      Known (addedPaths (createFdtCalls s)) ["chosen"] ∧
      Known (addedPaths (createFdtCalls s)) (nodePath s .pci) := by
  simp [Known, createFdtCalls, createFdtFlashCalls, createFdtFwCfgCalls, createFdtPmuCalls]

theorem grounded_virtioIommu (hpci : Known tree (nodePath s .pci)) (bdf : BitVec 16) :
    Grounded tree (createFdtVirtioIommuCalls s bdf) :=
  (grounded_newNode hpci _).append (grounded_writes hpci ["iommu-map"])

/-- The three nodes of a hart: the second is below the first. -/
theorem grounded_cpuCalls (config : Hart → HartConfig) {hart : Hart} (hcpus : Known tree ["cpus"])
    (hcluster : Known tree (clusterPath hart.socket)) :
    Grounded tree (createFdtCpuCalls s config hart) := by
  have hcpu : Grounded tree (newNode (nodePath s (.cpu hart (hartid s hart)))
      (cpuWrites (config hart))) := grounded_newNode hcpus _
  have hcore : Grounded tree (newNode (corePath hart) ["cpu"]) := grounded_newNode hcluster _
  refine Grounded.append ((grounded_append _ _).mpr ⟨hcpu, grounded_newNode ?_ _⟩) hcore
  exact .inr (by simp [nodePath])

theorem grounded_timers (accel : Accelerator) (hsoc : Known tree ["soc"]) (socket : Nat) :
    Grounded tree (socketTimersCalls s accel socket) := by
  refine grounded_ite (fun _ => ?_) fun _ =>
    grounded_ite (fun _ => grounded_onBus hsoc _) fun _ => trivial
  refine Grounded.append (Grounded.append ?_ (grounded_onBus hsoc _)) ?_
  · exact grounded_ite (fun _ => grounded_onBus hsoc _) fun _ => trivial
  · exact grounded_ite (fun _ => grounded_onBus hsoc _) fun _ => trivial

theorem grounded_socketCalls (accel : Accelerator) (config : Hart → HartConfig)
    (mem : SocketMemory s) (hsoc : Known tree ["soc"]) (hcpus : Known tree ["cpus"])
    (hmap : Known tree ["cpus", "cpu-map"]) (socket : Nat) :
    Grounded tree (socketCalls s accel config mem socket) := by
  have hcluster : Known (tree ++ addedPaths (newNode (clusterPath socket) []))
      (clusterPath socket) := .inr (by simp)
  have hharts : Grounded tree
      (newNode (clusterPath socket) [] ++ createFdtSocketCpusCalls s config socket) := by
    refine (grounded_append _ _).mpr ⟨grounded_newNode hmap _, grounded_flatMap ?_⟩
    intro hart hhart
    obtain ⟨cpu, -, rfl⟩ := List.mem_map.mp (List.mem_reverse.mp hhart)
    exact grounded_cpuCalls config (hcpus.append _) hcluster
  exact (hharts.append (grounded_onRoot _ _)).append (grounded_timers accel hsoc socket)

/-- The node of an interrupt controller is also the one that the platform bus is given. -/
theorem grounded_platformBus {path : NodePath} {calls : List TreeCall}
    (hcalls : Grounded tree calls) (hpath : path ∈ addedPaths calls) (socket : Nat) :
    Grounded tree (calls ++ platformBusCalls socket path) := by
  refine (grounded_append _ _).mpr ⟨hcalls, grounded_ite (fun _ => ?_) fun _ => trivial⟩
  exact grounded_writes (.inr (List.mem_append_right _ hpath)) ["platform_bus_add_all_fdt_nodes"]

theorem grounded_irqchips (hsoc : Known tree ["soc"]) (socket : Nat) :
    Grounded tree (socketXplicCalls s socket) := by
  refine grounded_ite (fun _ => ?_) fun _ => ?_
  · exact grounded_platformBus (grounded_onBus hsoc _) (by simp [nodePath]) socket
  · refine grounded_platformBus ?_ (by simp [createFdtOneAplicCalls]) socket
    exact Grounded.append (grounded_onBus hsoc _) (grounded_onBus hsoc _)

theorem grounded_socketsCalls (accel : Accelerator) (config : Hart → HartConfig)
    (mem : SocketMemory s) (hsoc : Known tree ["soc"]) :
    Grounded tree (createFdtSocketsCalls s accel config mem) := by
  have hcpus : Known (tree ++ addedPaths (newNode ["cpus"] ["timebase-frequency", "#size-cells",
      "#address-cells"] ++ newNode ["cpus", "cpu-map"] [])) ["cpus"] := .inr (by simp)
  have hmap : Known (tree ++ addedPaths (newNode ["cpus"] ["timebase-frequency", "#size-cells",
      "#address-cells"] ++ newNode ["cpus", "cpu-map"] [])) ["cpus", "cpu-map"] := .inr (by simp)
  refine Grounded.append (Grounded.append (Grounded.append ((grounded_append _ _).mpr
    ⟨(grounded_append _ _).mpr ⟨grounded_onRoot _ _, grounded_newNode (.inr (by simp)) _⟩,
      grounded_flatMap fun socket _ => ?_⟩) ?_) ?_) ?_
  · exact grounded_socketCalls accel config mem (hsoc.append _) hcpus hmap socket
  · exact grounded_ite (fun _ => Grounded.append (grounded_onBus hsoc _) (grounded_onBus hsoc _))
      fun _ => trivial
  · exact grounded_flatMap fun socket _ => grounded_irqchips hsoc socket
  · exact grounded_writes (.inl rfl) ["riscv_socket_fdt_write_distance_matrix"]

theorem grounded_finalizeCalls (accel : Accelerator) (config : Hart → HartConfig)
    (mem : SocketMemory s) (hsoc : Known tree ["soc"]) (hchosen : Known tree ["chosen"])
    (hpci : Known tree (nodePath s .pci)) :
    Grounded tree (finalizeFdtCalls s accel config mem) := by
  have hreset : Grounded tree (createFdtResetCalls s) :=
    ((grounded_onBus hsoc _).append (grounded_onRoot _ _)).append (grounded_onRoot _ _)
  have huart : Grounded tree (createFdtUartCalls s) :=
    (grounded_onBus hsoc _).append (grounded_writes hchosen ["stdout-path"])
  exact (((((grounded_socketsCalls accel config mem hsoc).append
    (grounded_flatMap fun index _ => grounded_onBus hsoc _)).append
      (grounded_writes hpci _)).append hreset).append huart).append
        (grounded_onBus hsoc _) |>.append (grounded_onBus hsoc _)

/-- Every call of the construction finds its node. -/
theorem grounded_fdtCalls (accel : Accelerator) (config : Hart → HartConfig) (mem : SocketMemory s)
    (plugged : List (BitVec 16)) : Grounded [] (fdtCalls s accel config mem plugged) := by
  obtain ⟨hsoc, hchosen, hpci⟩ := known_createFdt (s := s)
  rw [fdtCalls, grounded_append, grounded_append, addedPaths_append, List.nil_append,
    List.nil_append]
  refine ⟨⟨grounded_createFdt, grounded_flatMap fun bdf _ => grounded_virtioIommu hpci bdf⟩, ?_⟩
  exact grounded_finalizeCalls accel config mem (hsoc.append _) (hchosen.append _) (hpci.append _)

end Grounded

/-! ## The kinds of nodes -/

section Kinds

variable (s : AislabState)

/-- The names of a node, without the unit addresses. -/
def nodeKind : NodeName → List String
  | .cpu _ _ => ["cpus", "cpu"]
  | .intc _ _ => ["cpus", "cpu", "interrupt-controller"]
  | .clint _ => ["soc", "clint"]
  | .mswi _ => ["soc", "mswi"]
  | .mtimer _ => ["soc", "mtimer"]
  | .sswi _ => ["soc", "sswi"]
  | .plic _ => ["soc", "plic"]
  | .aplic _ _ => ["soc", "aplic"]
  | .imsics _ => ["soc", "imsics"]
  | .virtioMmio _ => ["soc", "virtio_mmio"]
  | .pci => ["soc", "pci"]
  | .test => ["soc", "test"]
  | .serial => ["soc", "serial"]
  | .rtc => ["soc", "rtc"]
  | .mmioBus => ["soc", "mmio_bus"]

/-- All but the interrupt controllers of harts have a unit address. -/
def nodeHasUnit : NodeName → Bool
  | .intc _ _ => false
  | _ => true

theorem nodePath_ofKind (name : NodeName) :
    OfKind (nodeKind name) (nodeHasUnit name) (nodePath s name) := by
  cases name with
  | intc hart hartid =>
      exact ⟨by simp [nodePath], by simp [nodePath, nodeKind, stem_unitName],
        by simp [nodePath, nodeHasUnit, lastName, HasUnit]⟩
  | _ =>
      exact ⟨by simp [nodePath], by simp [nodePath, nodeKind, stem_unitName],
        by simp [nodePath, nodeHasUnit, lastName, hasUnit_unitName]⟩

/-- A path without numbers. -/
theorem plain_ofKind {path : NodePath} (hpath : path ≠ []) (hplain : ¬HasUnit (lastName path)) :
    OfKind path false path := ⟨hpath, rfl, by simpa using hplain⟩

theorem rootUnit_ofKind (base unit : String) : OfKind [base] true [unitName base unit] :=
  ⟨by simp, by simp [stem_unitName], by simp [lastName, hasUnit_unitName]⟩

theorem clusterPath_ofKind (socket : Nat) :
    OfKind ["cpus", "cpu-map", "cluster"] false (clusterPath socket) :=
  ⟨by simp [clusterPath], by simp [clusterPath, stem_numberedName],
    by simpa [clusterPath, lastName] using not_hasUnit_numberedName (by decide) socket⟩

theorem corePath_ofKind (hart : Hart) :
    OfKind ["cpus", "cpu-map", "cluster", "core"] false (corePath hart) :=
  ⟨by simp [corePath], by simp [corePath, stem_numberedName],
    by simpa [corePath, lastName] using not_hasUnit_numberedName (by decide) hart.cpu⟩

theorem iommuPath_ofKind (bdf : BitVec 16) :
    OfKind ["soc", "pci", "virtio_iommu"] true (iommuPath s bdf) :=
  ⟨by simp [iommuPath], by simp [iommuPath, nodePath, stem_unitName],
    by simp [iommuPath, nodePath, lastName, hasUnit_unitName]⟩

/-- One node with a path that has no numbers. -/
def plainGroup (path : NodePath) (hpath : path ≠ []) (hplain : ¬HasUnit (lastName path)) :
    NodeGroup :=
  .family path false [()] (fun _ => path) fun _ => plain_ofKind hpath hplain

/-- Nodes of one kind with their addresses. -/
def nodeGroup {Item : Type} (kind : List String) (unit : Bool) (items : List Item)
    (name : Item → NodeName) (hkind : ∀ item, nodeKind (name item) = kind)
    (hunit : ∀ item, nodeHasUnit (name item) = unit) : NodeGroup :=
  .family kind unit items (fun item => nodePath s (name item)) fun item =>
    hkind item ▸ hunit item ▸ nodePath_ofKind s (name item)

/-- A device that there is one of. -/
def deviceGroup (name : NodeName) : NodeGroup :=
  nodeGroup s (nodeKind name) (nodeHasUnit name) [()] (fun _ => name) (fun _ => rfl) fun _ => rfl

/-- The nodes of the tree, kind by kind. -/
def fdtGroups (accel : Accelerator) (mem : SocketMemory s) (plugged : List (BitVec 16)) :
    List NodeGroup :=
  let sockets := List.range s.socketCount
  let aclint := aislabAclintAllowed accel && s.haveAclint
  [ plainGroup ["soc"] (by simp) (by decide),
    deviceGroup s .pci,
    plainGroup ["chosen"] (by simp) (by decide),
    .family ["flash"] true [()] (fun _ => flashPath) fun _ => rootUnit_ofKind _ _,
    .family ["fw-cfg"] true [()] (fun _ => fwCfgPath) fun _ => rootUnit_ofKind _ _,
    plainGroup ["pmu"] (by simp) (by decide),
    .family ["soc", "pci", "virtio_iommu"] true plugged (iommuPath s) (iommuPath_ofKind s),
    plainGroup ["cpus"] (by simp) (by decide),
    plainGroup ["cpus", "cpu-map"] (by simp) (by decide),
    .family ["cpus", "cpu-map", "cluster"] false sockets clusterPath clusterPath_ofKind,
    nodeGroup s ["cpus", "cpu"] true (hartsBelow s s.socketCount)
      (fun hart => .cpu hart (hartid s hart)) (fun _ => rfl) fun _ => rfl,
    nodeGroup s ["cpus", "cpu", "interrupt-controller"] false (hartsBelow s s.socketCount)
      (fun hart => .intc hart (hartid s hart)) (fun _ => rfl) fun _ => rfl,
    .family ["cpus", "cpu-map", "cluster", "core"] false (hartsBelow s s.socketCount) corePath
      corePath_ofKind,
    .family ["memory"] true sockets (memoryPath mem) fun _ => rootUnit_ofKind _ _,
    nodeGroup s ["soc", "mswi"] true
      (if aclint && s.aiaType != .aplicImsic then sockets else []) .mswi
      (fun _ => rfl) fun _ => rfl,
    nodeGroup s ["soc", "mtimer"] true (if aclint then sockets else []) .mtimer
      (fun _ => rfl) fun _ => rfl,
    nodeGroup s ["soc", "sswi"] true
      (if aclint && s.aiaType != .aplicImsic then sockets else []) .sswi
      (fun _ => rfl) fun _ => rfl,
    nodeGroup s ["soc", "clint"] true (if !aclint && tcgEnabled accel then sockets else []) .clint
      (fun _ => rfl) fun _ => rfl,
    nodeGroup s ["soc", "imsics"] true (if s.aiaType = .aplicImsic then [Level.m, .s] else [])
      .imsics (fun _ => rfl) fun _ => rfl,
    nodeGroup s ["soc", "plic"] true (if s.aiaType = .none then sockets else []) .plic
      (fun _ => rfl) fun _ => rfl,
    nodeGroup s ["soc", "aplic"] true
      (if s.aiaType = .none then []
        else sockets.flatMap fun socket => [(Level.m, socket), (.s, socket)])
      (fun place => .aplic place.1 place.2) (fun _ => rfl) fun _ => rfl,
    nodeGroup s ["soc", "virtio_mmio"] true (List.range 8) .virtioMmio (fun _ => rfl) fun _ => rfl,
    deviceGroup s .test,
    plainGroup ["reboot"] (by simp) (by decide),
    plainGroup ["poweroff"] (by simp) (by decide),
    deviceGroup s .serial,
    deviceGroup s .rtc,
    deviceGroup s .mmioBus ]

theorem fdtGroups_kinds (accel : Accelerator) (mem : SocketMemory s)
    (plugged : List (BitVec 16)) :
    ((fdtGroups s accel mem plugged).map fun group => group.names.map stem).Nodup := by
  simp only [fdtGroups, NodeGroup.family, nodeGroup, deviceGroup, plainGroup, nodeKind, List.map]
  decide

end Kinds

/-! ## The nodes that are added -/

section Regroup

variable (s : AislabState)

theorem addedPaths_writes (path : NodePath) (writes : List String) :
    addedPaths (writes.map (.write path)) = [] := by
  simp [addedPaths, TreeCall.adds]

theorem addedPaths_ite (condition : Prop) [Decidable condition] (yes no : List TreeCall) :
    addedPaths (if condition then yes else no) =
      if condition then addedPaths yes else addedPaths no := by
  split <;> rfl

theorem addedPaths_timers (accel : Accelerator) (socket : Nat) :
    addedPaths (socketTimersCalls s accel socket) =
      (timerNodes s accel socket).map (nodePath s) := by
  rw [socketTimersCalls, timerNodes]
  by_cases haclint : (aislabAclintAllowed accel && s.haveAclint) = true
  · by_cases himsic : s.aiaType = .aplicImsic
    · simp only [haclint, himsic, if_true]
      simp [createFdtSocketAclintCalls, himsic]
    · simp only [haclint, himsic, if_true, if_false]
      simp [createFdtSocketAclintCalls, himsic]
  · by_cases htcg : tcgEnabled accel = true
    · simp only [haclint, htcg]
      simp [createFdtSocketClintCalls]
    · simp only [haclint, htcg]
      simp

theorem addedPaths_imsics :
    addedPaths (if s.aiaType = .aplicImsic then createFdtImsicCalls s else []) =
      (imsicNodes s).map (nodePath s) := by
  rw [addedPaths_ite, imsicNodes]
  split
  · simp [createFdtImsicCalls, createFdtOneImsicCalls]
  · rfl

theorem addedPaths_irqchips (socket : Nat) :
    addedPaths (socketXplicCalls s socket) = (irqchipNodes s socket).map (nodePath s) := by
  have hbus : ∀ path, addedPaths (platformBusCalls socket path) = [] := by
    intro path
    simp [platformBusCalls, addedPaths_ite, TreeCall.adds]
  rw [socketXplicCalls, addedPaths_ite, irqchipNodes]
  split
  · simp [createFdtSocketPlicCalls, hbus]
  · simp [createFdtSocketAplicCalls, createFdtOneAplicCalls, hbus]

/-- The paths of a hart. -/
def hartPaths (hart : Hart) : List NodePath :=
  [nodePath s (.cpu hart (hartid s hart)), nodePath s (.intc hart (hartid s hart)), corePath hart]

theorem addedPaths_socketCalls (accel : Accelerator) (config : Hart → HartConfig)
    (mem : SocketMemory s) (socket : Nat) :
    addedPaths (socketCalls s accel config mem socket) =
      clusterPath socket :: ((socketHarts s socket).reverse.flatMap (hartPaths s) ++
        memoryPath mem socket :: (timerNodes s accel socket).map (nodePath s)) := by
  have hharts : addedPaths (createFdtSocketCpusCalls s config socket) =
      (socketHarts s socket).reverse.flatMap (hartPaths s) := by
    rw [createFdtSocketCpusCalls, addedPaths_flatMap]
    refine List.flatMap_congr fun hart _ => ?_
    simp [createFdtCpuCalls, hartPaths]
  simp only [socketCalls, addedPaths_append, addedPaths_timers, hharts]
  simp [createFdtSocketMemoryCalls]

/-- The calls in the order of the source. -/
theorem addedPaths_fdtCalls (accel : Accelerator) (config : Hart → HartConfig)
    (mem : SocketMemory s) (plugged : List (BitVec 16)) :
    addedPaths (fdtCalls s accel config mem plugged) =
      [["soc"], nodePath s .pci, ["chosen"], flashPath, fwCfgPath, ["pmu"]] ++
      plugged.map (iommuPath s) ++ [["cpus"], ["cpus", "cpu-map"]] ++
      ((List.range s.socketCount).reverse.flatMap fun socket =>
        clusterPath socket :: ((socketHarts s socket).reverse.flatMap (hartPaths s) ++
          memoryPath mem socket :: (timerNodes s accel socket).map (nodePath s))) ++
      (imsicNodes s).map (nodePath s) ++
      ((List.range s.socketCount).reverse.flatMap fun socket =>
        (irqchipNodes s socket).map (nodePath s)) ++
      (List.range 8).map (fun index => nodePath s (.virtioMmio index)) ++
      [nodePath s .test, ["reboot"], ["poweroff"], nodePath s .serial, nodePath s .rtc,
        nodePath s .mmioBus] := by
  have hiommu : ∀ bdf, addedPaths (createFdtVirtioIommuCalls s bdf) = [iommuPath s bdf] := by
    intro bdf
    simp [createFdtVirtioIommuCalls, TreeCall.adds]
  simp only [fdtCalls, finalizeFdtCalls, createFdtCalls, createFdtFlashCalls, createFdtFwCfgCalls,
    createFdtPmuCalls, createFdtSocketsCalls, createFdtVirtioCalls, createFdtPcieCalls,
    createFdtResetCalls, createFdtUartCalls, createFdtRtcCalls, createFdtMmioBusCalls,
    addedPaths_append, addedPaths_flatMap, addedPaths_writes, addedPaths_newNode,
    addedPaths_imsics, addedPaths_irqchips, addedPaths_socketCalls, hiommu, addedPaths_cons,
    TreeCall.adds, addedPaths_nil, List.nil_append, List.append_nil, ← List.map_eq_flatMap]
  simp

theorem flatMap_three_perm {Item Result : Type*} (items : List Item)
    (first second third : Item → Result) :
    (items.flatMap fun item => [first item, second item, third item]).Perm
      (items.map first ++ items.map second ++ items.map third) := by
  have hlast : items.flatMap (fun item => [third item]) = items.map third :=
    List.map_eq_flatMap.symm
  refine (List.map_append_flatMap_perm items first _).symm.trans ?_
  rw [List.append_assoc]
  refine List.Perm.append_left _ ?_
  rw [← hlast]
  exact (List.map_append_flatMap_perm items second _).symm

/-- The nodes that the sockets have for their harts, memory and timers. -/
theorem socketPaths_perm (accel : Accelerator) (mem : SocketMemory s) :
    ((List.range s.socketCount).reverse.flatMap fun socket =>
        clusterPath socket :: ((socketHarts s socket).reverse.flatMap (hartPaths s) ++
          memoryPath mem socket :: (timerNodes s accel socket).map (nodePath s))).Perm
      ((List.range s.socketCount).map clusterPath ++
        ((hartsBelow s s.socketCount).flatMap (hartPaths s) ++
          ((List.range s.socketCount).map (memoryPath mem) ++
            (List.range s.socketCount).flatMap fun socket =>
              (timerNodes s accel socket).map (nodePath s)))) := by
  have hup := perm_flatMap_reverse s.socketCount fun socket =>
    (((socketHarts s socket).reverse_perm.flatMap_right (hartPaths s)).append_right
      (memoryPath mem socket :: (timerNodes s accel socket).map (nodePath s))).cons
        (clusterPath socket)
  refine hup.trans ((List.map_append_flatMap_perm _ _ _).symm.trans (List.Perm.append_left _ ?_))
  refine (List.flatMap_append_perm _ _ _).symm.trans ?_
  rw [hartsBelow, List.flatMap_assoc]
  exact List.Perm.append_left _ (List.map_append_flatMap_perm _ _ _).symm

/-- The timers, kind by kind. -/
theorem timerPaths_perm (accel : Accelerator) (sockets : List Nat) :
    (sockets.flatMap fun socket => (timerNodes s accel socket).map (nodePath s)).Perm
      (((if aislabAclintAllowed accel && s.haveAclint && s.aiaType != .aplicImsic then sockets
            else []).map fun socket => nodePath s (.mswi socket)) ++
        ((if aislabAclintAllowed accel && s.haveAclint then sockets else []).map fun socket =>
          nodePath s (.mtimer socket)) ++
        ((if aislabAclintAllowed accel && s.haveAclint && s.aiaType != .aplicImsic then sockets
            else []).map fun socket => nodePath s (.sswi socket)) ++
        ((if !(aislabAclintAllowed accel && s.haveAclint) && tcgEnabled accel then sockets
            else []).map fun socket => nodePath s (.clint socket))) := by
  simp only [timerNodes]
  by_cases haclint : (aislabAclintAllowed accel && s.haveAclint) = true
  · by_cases himsic : s.aiaType = .aplicImsic
    · simp only [haclint, himsic]
      simp [List.map_eq_flatMap]
    · simp only [haclint, himsic]
      simpa [himsic] using flatMap_three_perm sockets _ _ _
  · by_cases htcg : tcgEnabled accel = true
    · simp only [haclint, htcg]
      simp [List.map_eq_flatMap]
    · simp only [haclint, htcg]
      simp

/-- The interrupt controllers, kind by kind. -/
theorem irqchipPaths_perm :
    ((List.range s.socketCount).reverse.flatMap fun socket =>
        (irqchipNodes s socket).map (nodePath s)).Perm
      (((if s.aiaType = .none then List.range s.socketCount else []).map fun socket =>
          nodePath s (.plic socket)) ++
        ((if s.aiaType = .none then []
          else (List.range s.socketCount).flatMap fun socket =>
            [(Level.m, socket), (.s, socket)]).map fun place =>
              nodePath s (.aplic place.1 place.2))) := by
  refine (perm_flatMap_reverse s.socketCount fun _ => .refl _).trans ?_
  simp only [irqchipNodes]
  by_cases hplic : s.aiaType = .none
  · simp [hplic, List.map_eq_flatMap]
  · simp [hplic, List.map_flatMap]

theorem addedPaths_perm (accel : Accelerator) (config : Hart → HartConfig) (mem : SocketMemory s)
    (plugged : List (BitVec 16)) :
    (addedPaths (fdtCalls s accel config mem plugged)).Perm
      ((fdtGroups s accel mem plugged).flatMap NodeGroup.paths) := by
  have hsockets := (socketPaths_perm s accel mem).trans
    (((flatMap_three_perm (hartsBelow s s.socketCount) _ _ _).append
      ((timerPaths_perm s accel _).append_left _)).append_left _)
  have himsics : (imsicNodes s).map (nodePath s) =
      (if s.aiaType = .aplicImsic then [Level.m, .s] else []).map fun level =>
        nodePath s (.imsics level) := by
    rw [imsicNodes]
    split <;> rfl
  have hall := (((hsockets.append_left ([["soc"], nodePath s .pci, ["chosen"], flashPath, fwCfgPath,
      ["pmu"]] ++ plugged.map (iommuPath s) ++ [["cpus"], ["cpus", "cpu-map"]])).append_right
    ((imsicNodes s).map (nodePath s))).append (irqchipPaths_perm s)).append_right
      ((List.range 8).map (fun index => nodePath s (.virtioMmio index)) ++
        [nodePath s .test, ["reboot"], ["poweroff"], nodePath s .serial, nodePath s .rtc,
          nodePath s .mmioBus])
  rw [himsics] at hall
  rw [addedPaths_fdtCalls, himsics]
  simpa only [fdtGroups, NodeGroup.family, nodeGroup, deviceGroup, plainGroup, List.flatMap_cons,
    List.flatMap_nil, List.map_cons, List.map_nil, List.cons_append, List.nil_append,
    List.append_assoc, List.append_nil] using hall

end Regroup

section Model

variable (s : AislabState)

/-- The nodes that `finalizeFdt` leaves out. -/
def otherPaths (mem : SocketMemory s) (plugged : List (BitVec 16)) : List NodePath :=
  [["soc"], ["chosen"], flashPath, fwCfgPath, ["pmu"], ["cpus"], ["cpus", "cpu-map"], ["reboot"],
      ["poweroff"]] ++
    (List.range s.socketCount).map clusterPath ++ (hartsBelow s s.socketCount).map corePath ++
    (List.range s.socketCount).map (memoryPath mem) ++ plugged.map (iommuPath s)

theorem hartPaths_perm :
    ((hartsBelow s s.socketCount).flatMap (hartPaths s)).Perm
      (((hartsBelow s s.socketCount).flatMap fun hart => (hartNodes s hart).map (nodePath s)) ++
        (hartsBelow s s.socketCount).map corePath) := by
  have hcore : (hartsBelow s s.socketCount).map corePath =
      (hartsBelow s s.socketCount).flatMap fun hart => [corePath hart] := List.map_eq_flatMap
  have hsplit : hartPaths s = fun hart => (hartNodes s hart).map (nodePath s) ++ [corePath hart] :=
    rfl
  rw [hcore, hsplit]
  exact (List.flatMap_append_perm _ _ _).symm

theorem expectedPaths_perm (accel : Accelerator) :
    ((expectedNodes s accel).map (nodePath s)).Perm
      (((hartsBelow s s.socketCount).flatMap fun hart => (hartNodes s hart).map (nodePath s)) ++
        ((List.range s.socketCount).flatMap fun socket =>
          (timerNodes s accel socket).map (nodePath s)) ++
        (imsicNodes s).map (nodePath s) ++
        ((List.range s.socketCount).flatMap fun socket =>
          (irqchipNodes s socket).map (nodePath s)) ++
        deviceNodes.map (nodePath s)) := by
  simp only [expectedNodes, List.map_append, List.map_flatMap, hartsBelow, List.flatMap_assoc]
  exact (((List.flatMap_append_perm _ _ _).symm.append_right _).append_right _).append_right _

/-- The nodes of `finalizeFdt` are nodes of the tree. -/
theorem addedPaths_finalizeFdt (accel : Accelerator) (cpus : Nat) (config : Hart → HartConfig)
    (mem : SocketMemory s) (plugged : List (BitVec 16)) :
    (addedPaths (fdtCalls s accel config mem plugged)).Perm
      (otherPaths s mem plugged ++
        (finalizeFdt s accel cpus).nodes.map fun node => nodePath s node.name) := by
  have hnodes :=
    ((finalizeFdt_nodes s accel cpus).map (nodePath s)).trans (expectedPaths_perm s accel)
  have hsockets :=
    (socketPaths_perm s accel mem).trans (((hartPaths_perm s).append_right _).append_left _)
  have hirqchips := perm_flatMap_reverse s.socketCount fun socket =>
    List.Perm.refl ((irqchipNodes s socket).map (nodePath s))
  rw [List.map_map] at hnodes
  -- As multisets, the two sides have the same summands.
  rw [addedPaths_fdtCalls]
  rw [← Multiset.coe_eq_coe] at hnodes hsockets hirqchips ⊢
  simp only [← Multiset.coe_add, ← Multiset.cons_coe, ← Multiset.singleton_add, otherPaths,
    deviceNodes, List.map_append, List.map_cons, List.map_nil, List.map_map, Function.comp_def]
      at hnodes hsockets hirqchips ⊢
  rw [hnodes, hsockets, hirqchips]
  abel
end Model

/-! ## The names are different -/

/-- No two harts have one hartid. -/
def HartidsDistinct (s : AislabState) : Prop := ((hartsBelow s s.socketCount).map (hartid s)).Nodup

section Distinct

variable {s : AislabState}

theorem hartsBelow_nodup (socketCount : Nat) : (hartsBelow s socketCount).Nodup := by
  refine List.nodup_flatMap.mpr ⟨fun socket _ => ?_, ?_⟩
  · refine List.nodup_range.map fun first second hsame => ?_
    exact congrArg Hart.cpu hsame
  · refine List.nodup_range.imp fun {first second} hdiffer hart hfirst hsecond => hdiffer ?_
    rw [← (mem_socketHarts.mp hfirst).1, ← (mem_socketHarts.mp hsecond).1]

theorem clusterPath_injective : Function.Injective clusterPath := by
  intro first second hsame
  simpa [clusterPath, numberedName_inj] using hsame

theorem corePath_injective : Function.Injective corePath := by
  rintro ⟨socket, cpu⟩ ⟨socket', cpu'⟩ hsame
  simpa [corePath, numberedName_inj] using hsame

/-- Paths on the bus differ when their addresses do. -/
theorem busPath_inj {base : String} {first second : Nat} :
    (["soc", unitName base (hexText first)] : NodePath) = ["soc", unitName base (hexText second)] ↔
      first = second := by
  simp [unitName_inj, hexText_injective.eq_iff]

theorem clintPath_injective : Function.Injective fun socket => nodePath s (.clint socket) := by
  intro first second hsame
  have haddr := busPath_inj.mp hsame
  have hsize : (aislabMemmap .clint).size = 0x10000 := rfl
  simp only [clintAddr, hsize] at haddr
  omega

theorem mswiPath_injective : Function.Injective fun socket => nodePath s (.mswi socket) := by
  intro first second hsame
  have haddr := busPath_inj.mp hsame
  have hsize : (aislabMemmap .clint).size = 0x10000 := rfl
  simp only [clintAddr, hsize] at haddr
  omega

theorem mtimerPath_injective : Function.Injective fun socket => nodePath s (.mtimer socket) := by
  intro first second hsame
  have haddr := busPath_inj.mp hsame
  have hsize : (aislabMemmap .clint).size = 0x10000 := rfl
  have hmtimer : riscvAclintDefaultMtimerSize = 0x8000 := rfl
  simp only [mtimerEntry] at haddr
  split at haddr
  · simp only [hmtimer] at haddr
    omega
  · simp only [hsize] at haddr
    omega

/-- The nodes with an entry of the map for each socket. -/
theorem socketEntryPath_injective (base : String) {index : MemMapIndex}
    (hsize : 0 < (aislabMemmap index).size) :
    Function.Injective fun socket =>
      (["soc", unitName base (hexText (socketEntry index socket).base)] : NodePath) := by
  intro first second hsame
  have haddr : (aislabMemmap index).size * first = (aislabMemmap index).size * second :=
    Nat.add_left_cancel (busPath_inj.mp hsame)
  exact Nat.eq_of_mul_eq_mul_left hsize haddr

theorem virtioPath_injective : Function.Injective fun index => nodePath s (.virtioMmio index) := by
  intro first second hsame
  have haddr := busPath_inj.mp hsame
  have hsize : (aislabMemmap .virtio).size = 0x1000 := rfl
  simp only [hsize] at haddr
  omega

theorem cpuPaths_nodup_iff :
    ((hartsBelow s s.socketCount).map fun hart => nodePath s (.cpu hart (hartid s hart))).Nodup ↔
      HartidsDistinct s := by
  have hprint : Function.Injective fun hartid : Int =>
      (["cpus", unitName "cpu" (toString hartid)] : NodePath) := by
    intro first second hsame
    exact intText_injective (by simpa [unitName_inj] using hsame)
  rw [HartidsDistinct, ← List.nodup_map_iff hprint, List.map_map]
  rfl

theorem intcPaths_nodup_iff :
    ((hartsBelow s s.socketCount).map fun hart => nodePath s (.intc hart (hartid s hart))).Nodup ↔
      HartidsDistinct s := by
  have hprint : Function.Injective fun hartid : Int =>
      (["cpus", unitName "cpu" (toString hartid), "interrupt-controller"] : NodePath) := by
    intro first second hsame
    exact intText_injective (by simpa [unitName_inj] using hsame)
  rw [HartidsDistinct, ← List.nodup_map_iff hprint, List.map_map]
  rfl

theorem offset_lt {mem : SocketMemory s} {first second : Nat} (hless : first < second)
    (hsizes : ∀ socket, socket < second → 0 < mem.size socket) :
    mem.offset first < mem.offset second := by
  induction second with
  | zero => omega
  | succ second ih =>
      have hlast := hsizes second (by omega)
      have hnext := mem.next second
      by_cases hsame : first = second
      · subst hsame
        omega
      · have hbefore := ih (by omega) fun socket hsocket => hsizes socket (by omega)
        omega

/-- Memory nodes have one address exactly when there is a socket without memory between. -/
theorem memoryPaths_nodup_iff (mem : SocketMemory s) :
    ((List.range s.socketCount).map (memoryPath mem)).Nodup ↔
      ∀ socket, socket + 1 < s.socketCount → 0 < mem.size socket := by
  have hpath : ∀ first second, memoryPath mem first = memoryPath mem second ↔
      mem.offset first = mem.offset second := by
    intro first second
    simp [memoryPath, unitName_inj, hexText_injective.eq_iff, SocketMemory.range]
  simp only [List.nodup_map_iff_inj_on List.nodup_range, List.mem_range, hpath]
  constructor
  · intro hdiffer socket hsocket
    by_contra hempty
    have hnext := mem.next socket
    have hsame := hdiffer socket (by omega) (socket + 1) hsocket (by omega)
    omega
  · intro hsizes first hfirst second hsecond hsame
    by_contra hne
    rcases Nat.lt_or_gt_of_ne hne with hless | hless
    · have hbelow := offset_lt hless fun socket hsocket => hsizes socket (by omega)
      omega
    · have hbelow := offset_lt hless fun socket hsocket => hsizes socket (by omega)
      omega

/-- The name of an IOMMU from its slot and function. -/
theorem iommuPaths_nodup_iff (plugged : List (BitVec 16)) :
    (plugged.map (iommuPath s)).Nodup ↔ (plugged.map fun bdf => bdf.toNat % 256).Nodup := by
  have hcomma : ∀ slot < 32, ',' ∉ Nat.toDigits 16 slot := by decide
  have hprint : ∀ first second : BitVec 16, iommuPath s first = iommuPath s second ↔
      first.toNat % 256 = second.toNat % 256 := by
    intro first second
    constructor
    · intro hsame
      have htext : hexText (first.toNat / 8 % 32) ++ "," ++ hexText (first.toNat % 8) =
          hexText (second.toNat / 8 % 32) ++ "," ++ hexText (second.toNat % 8) := by
        simpa [iommuPath, unitName_inj] using hsame
      have hdigits := congrArg String.toList htext
      simp only [String.toList_append, hexText, String.toList_ofList, List.append_assoc] at hdigits
      obtain ⟨hslots, -, hfunctions⟩ := (List.append_cons_inj_of_notMem
        (hcomma _ (by omega)) (hcomma _ (by omega))).mp hdigits
      have hslot := toDigits_injective (by decide) (by decide) hslots
      have hfunction := toDigits_injective (by decide) (by decide) hfunctions
      omega
    · intro hsame
      have hslot : first.toNat / 8 % 32 = second.toNat / 8 % 32 := by omega
      have hfunction : first.toNat % 8 = second.toNat % 8 := by omega
      rw [iommuPath, iommuPath, hslot, hfunction]
  simp only [List.Nodup, List.pairwise_map, ne_eq, hprint]

/-- At most one node for each socket. -/
theorem socketPaths_nodup {path : Nat → NodePath} (hpath : Function.Injective path)
    (condition : Prop) [Decidable condition] :
    ((if condition then List.range s.socketCount else []).map path).Nodup := by
  split
  · exact List.nodup_range.map hpath
  · exact List.nodup_nil

theorem socket_of_mem_pair {place : Level × Nat} {socket : Nat}
    (hplace : place ∈ [(Level.m, socket), (.s, socket)]) : place.2 = socket := by
  simp only [List.mem_cons, List.not_mem_nil, or_false] at hplace
  rcases hplace with rfl | rfl <;> rfl

theorem aplicPlaces_nodup (socketCount : Nat) :
    ((List.range socketCount).flatMap fun socket => [(Level.m, socket), (.s, socket)]).Nodup := by
  refine List.nodup_flatMap.mpr ⟨fun socket _ => by simp, ?_⟩
  refine List.nodup_range.imp fun {first second} hdiffer place hfirst hsecond => hdiffer ?_
  rw [← socket_of_mem_pair hfirst, ← socket_of_mem_pair hsecond]

/-- The addresses of the two levels do not meet. -/
theorem aplicPaths_nodup (hsockets : s.socketCount ≤ aislabSocketsMax) :
    ((if s.aiaType = .none then []
      else (List.range s.socketCount).flatMap fun socket => [(Level.m, socket), (.s, socket)]).map
        fun place => nodePath s (.aplic place.1 place.2)).Nodup := by
  have hmax : aislabSocketsMax = 4 := rfl
  have hm : aislabMemmap .aplicM = { base := 0xc000000, size := 0x8000 } := rfl
  have hs : aislabMemmap .aplicS = { base := 0xd000000, size := 0x8000 } := rfl
  have hbelow : ∀ place ∈ (List.range s.socketCount).flatMap fun socket =>
      [(Level.m, socket), (.s, socket)], place.2 < 4 := by
    intro place hplace
    obtain ⟨socket, hsocket, hpair⟩ := List.mem_flatMap.mp hplace
    have hless := List.mem_range.mp hsocket
    rw [socket_of_mem_pair hpair]
    omega
  split
  · exact List.nodup_nil
  · refine (aplicPlaces_nodup _).map_on ?_
    rintro ⟨level, socket⟩ hplace ⟨level', socket'⟩ hplace' hsame
    have haddr := busPath_inj.mp hsame
    have hsocket : socket < 4 := hbelow _ hplace
    have hsocket' : socket' < 4 := hbelow _ hplace'
    cases level <;> cases level' <;>
      simp only [socketEntry, aplicEntry, hm, hs] at haddr <;>
      simp only [Prod.mk.injEq, reduceCtorEq, false_and, true_and] <;> omega

theorem imsicPaths_nodup :
    ((if s.aiaType = .aplicImsic then [Level.m, .s] else []).map fun level =>
      nodePath s (.imsics level)).Nodup := by
  have hdiffer : (imsicEntry .m).base ≠ (imsicEntry .s).base := by decide
  split
  · simpa [nodePath, unitName_inj, hexText_injective.eq_iff] using hdiffer
  · exact List.nodup_nil

end Distinct

section Builds

variable (s : AislabState)

/-- No call misses a node.  The tree can be built exactly when all sockets but the last have
memory, all harts have hartids of their own, and the IOMMUs have slots and functions of their
own. -/
theorem fdtBuilds_iff (accel : Accelerator) (cpus : Nat) (config : Hart → HartConfig)
    (mem : SocketMemory s) (plugged : List (BitVec 16))
    (hsockets : s.socketCount ≤ aislabSocketsMax) :
    Grounded [] (fdtCalls s accel config mem plugged) ∧
    (Builds (fdtCalls s accel config mem plugged) ↔
      (∀ socket, socket + 1 < s.socketCount → 0 < mem.size socket) ∧ HartidsDistinct s ∧
        (plugged.map fun bdf => bdf.toNat % 256).Nodup) ∧
    (addedPaths (fdtCalls s accel config mem plugged)).Perm
      (otherPaths s mem plugged ++
        (finalizeFdt s accel cpus).nodes.map fun node => nodePath s node.name) := by
  have hgrounded := grounded_fdtCalls accel config mem plugged
  refine ⟨hgrounded, ?_, addedPaths_finalizeFdt s accel cpus config mem plugged⟩
  rw [builds_iff, and_iff_right hgrounded,
    free_groups_iff (addedPaths_perm s accel config mem plugged)
      (fdtGroups_kinds s accel mem plugged)]
  simp only [fdtGroups, plainGroup, deviceGroup, nodeGroup, NodeGroup.family, List.forall_mem_cons,
    List.nodup_singleton, List.map_cons, List.map_nil, true_and, iommuPaths_nodup_iff,
    cpuPaths_nodup_iff, intcPaths_nodup_iff, memoryPaths_nodup_iff]
  constructor
  · rintro ⟨hiommus, -, hhartids, -, -, hmemory, -⟩
    exact ⟨hmemory, hhartids, hiommus⟩
  · rintro ⟨hmemory, hhartids, hiommus⟩
    exact ⟨hiommus, List.nodup_range.map clusterPath_injective, hhartids, hhartids,
      (hartsBelow_nodup _).map corePath_injective, hmemory,
      socketPaths_nodup mswiPath_injective _, socketPaths_nodup mtimerPath_injective _,
      socketPaths_nodup (socketEntryPath_injective _ (by decide)) _,
      socketPaths_nodup clintPath_injective _, imsicPaths_nodup,
      socketPaths_nodup (socketEntryPath_injective _ (by decide)) _, aplicPaths_nodup hsockets,
      List.nodup_range.map virtioPath_injective, by simp⟩

end Builds

/-- Two sockets of which the second one has all the RAM. -/
def secondOnly (ramSize : Nat)
    (hlimited : limitedRamSize (twoSocketBoard false ramSize) = ramSize) :
    SocketMemory (twoSocketBoard false ramSize) where
  offset := fun socket => if socket ≤ 1 then 0 else ramSize
  size := fun socket => if socket = 1 then ramSize else 0
  first := if_pos (Nat.zero_le 1)
  next := by
    intro socket
    by_cases hsecond : socket = 1
    · subst hsecond
      simp
    · by_cases hfirst : socket = 0
      · subst hfirst
        simp
      · rw [if_neg (by omega), if_neg (by omega), if_neg hsecond, Nat.add_zero]
  total := hlimited.symm

/-- A demonstration configuration of the harts. -/
def plainHart : HartConfig where
  satpModeSupported := true
  extZicbom := false
  extZicboz := true
  extZicbop := false

/-- With half of the RAM for each socket the tree is built, and without RAM for the first one it
is not. -/
theorem fdtBuilds_twoSocketBoard :
    Builds (fdtCalls (twoSocketBoard false (64 * giB)) .tcg (fun _ => plainHart)
      (halves (64 * giB) rfl) [0x8, 0x10]) ∧
    ¬Builds (fdtCalls (twoSocketBoard false (64 * giB)) .tcg (fun _ => plainHart)
      (secondOnly (64 * giB) rfl) []) := by
  constructor
  · refine (fdtBuilds_iff (twoSocketBoard false (64 * giB)) .tcg 8 (fun _ => plainHart)
      (halves (64 * giB) rfl) [0x8, 0x10] (by decide)).2.1.mpr ⟨?_, ?_, by decide⟩
    · intro socket _
      have hhalf : 0 < 64 * giB / 2 := by decide
      exact hhalf
    · unfold HartidsDistinct
      decide
  · intro hbuilds
    have hsizes := ((fdtBuilds_iff (twoSocketBoard false (64 * giB)) .tcg 8 (fun _ => plainHart)
      (secondOnly (64 * giB) rfl) [] (by decide)).2.1.mp hbuilds).1
    exact absurd (hsizes 0 (by decide)) (by decide)

end Board
end AislabVP
