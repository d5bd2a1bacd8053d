import AislabVP.Board.DeviceTree
import Mathlib.Data.List.Perm.Basic

/-!
# The nodes of the device tree

Which nodes `finalize_fdt` creates, and that it creates each of them once.  All functions
only add nodes, and `Adds` says which; the order is that of the source's loops, which run
downwards, and `expectedNodes` lists the same nodes upwards (`finalizeFdt_nodes`).
-/

namespace AislabVP
namespace Board

/-- The harts of a socket, in order. -/
def socketHarts (s : AislabState) (socket : Nat) : List Hart :=
  (List.range (numHarts s socket)).map fun cpu => { socket := socket, cpu := cpu }

/-- The nodes of a hart. -/
def hartNodes (s : AislabState) (hart : Hart) : List NodeName :=
  [.cpu hart (hartid s hart), .intc hart (hartid s hart)]

/-- The nodes of timers and software interrupts of a socket. -/
def timerNodes (s : AislabState) (accel : Accelerator) (socket : Nat) : List NodeName :=
  if aislabAclintAllowed accel && s.haveAclint then
    if s.aiaType = .aplicImsic then [.mtimer socket]
    else [.mswi socket, .mtimer socket, .sswi socket]
  else if tcgEnabled accel then [.clint socket]
  else []

/-- The nodes of the IMSICs. -/
def imsicNodes (s : AislabState) : List NodeName :=
  if s.aiaType = .aplicImsic then [.imsics .m, .imsics .s] else []

/-- The nodes of the interrupt controller of a socket. -/
def irqchipNodes (s : AislabState) (socket : Nat) : List NodeName :=
  if s.aiaType = .none then [.plic socket] else [.aplic .m socket, .aplic .s socket]

/-- The nodes of the devices. -/
def deviceNodes : List NodeName :=
  (List.range 8).map .virtioMmio ++ [.pci, .test, .serial, .rtc, .mmioBus]

/-- The nodes that the tree should have. -/
def expectedNodes (s : AislabState) (accel : Accelerator) : List NodeName :=
  (List.range s.socketCount).flatMap (fun socket =>
      (socketHarts s socket).flatMap (hartNodes s) ++ timerNodes s accel socket) ++
    imsicNodes s ++ (List.range s.socketCount).flatMap (irqchipNodes s) ++ deviceNodes

/-- The later state has new nodes of these names, and the old ones unchanged. -/
def Adds (st st' : FdtState) (names : List NodeName) : Prop :=
  ∃ news, st'.nodes = st.nodes ++ news ∧ news.map FdtNode.name = names

/-! ## What the functions add -/

section Adds

variable {st st' st'' : FdtState} {names others : List NodeName}

theorem Adds.refl (st : FdtState) : Adds st st [] := ⟨[], (List.append_nil _).symm, rfl⟩

theorem Adds.trans (hfirst : Adds st st' names) (hsecond : Adds st' st'' others) :
    Adds st st'' (names ++ others) := by
  obtain ⟨news, hnews, rfl⟩ := hfirst
  obtain ⟨more, hmore, rfl⟩ := hsecond
  refine ⟨news ++ more, ?_, List.map_append⟩
  rw [hmore, hnews, List.append_assoc]

variable (s : AislabState)

/-- What the turn of a hart does to the state. -/
theorem createFdtCpu_fields (socket cpu : Nat) (pos : Int) (st : FdtState) :
    (createFdtCpu s socket pos cpu st).nodes =
        st.nodes ++ [.target (.cpu ⟨socket, cpu⟩ (hartid s ⟨socket, cpu⟩)) st.phandle [],
          .target (.intc ⟨socket, cpu⟩ (hartid s ⟨socket, cpu⟩)) (st.phandle + 1) []] ∧
      (createFdtCpu s socket pos cpu st).phandle = st.phandle + 1 + 1 ∧
      (createFdtCpu s socket pos cpu st).intcPhandles =
        Function.update st.intcPhandles (pos + cpu) (st.phandle + 1) ∧
      (createFdtCpu s socket pos cpu st).accesses =
        st.accesses ++ [.write (pos + cpu)] ++ [pos + (cpu : Int)].map .read := by
  refine ⟨?_, rfl, rfl, rfl⟩
  simp [createFdtCpu, FdtState.addNode, FdtState.nextPhandle, FdtState.writeSlot,
    FdtState.readSlots]

theorem createFdtCpu_adds (socket : Nat) (pos : Int) (cpu : Nat) (st : FdtState) :
    Adds st (createFdtCpu s socket pos cpu st) (hartNodes s ⟨socket, cpu⟩) :=
  ⟨_, (createFdtCpu_fields s socket cpu pos st).1, rfl⟩

theorem createFdtSocketCpus_adds (socket : Nat) (pos : Int) (count : Nat) (st : FdtState) :
    Adds st (createFdtSocketCpus s socket pos count st)
      ((List.range count).reverse.flatMap fun cpu => hartNodes s ⟨socket, cpu⟩) := by
  induction count generalizing st with
  | zero => exact Adds.refl st
  | succ cpu ih =>
      rw [List.range_succ, List.reverse_append, List.reverse_singleton, List.flatMap_append,
        List.flatMap_singleton]
      exact (createFdtCpu_adds s socket pos cpu st).trans (ih _)

/-- `create_fdt_socket_aclint` when the socket also has software interrupts. -/
theorem createFdtSocketAclint_eq (himsic : s.aiaType ≠ .aplicImsic) (socket : Nat) (pos : Int)
    (st : FdtState) :
    createFdtSocketAclint s socket pos st =
      { st with
        accesses := st.accesses ++ (cellSlots pos (numHarts s socket) 3).map .read
        nodes := st.nodes ++
          [.plain (.mswi socket) (interruptCells st pos (numHarts s socket) [.mSoft]) [],
            .plain (.mtimer socket) (interruptCells st pos (numHarts s socket) [.mTimer]) [],
            .plain (.sswi socket) (interruptCells st pos (numHarts s socket) [.sSoft]) []] } := by
  simp [createFdtSocketAclint, himsic, FdtState.addNode, FdtState.readSlots]

/-- With MSIs only the MTIMER has a node. -/
theorem createFdtSocketAclint_eq_of_imsic (himsic : s.aiaType = .aplicImsic) (socket : Nat)
    (pos : Int) (st : FdtState) :
    createFdtSocketAclint s socket pos st =
      { st with
        accesses := st.accesses ++ (cellSlots pos (numHarts s socket) 3).map .read
        nodes := st.nodes ++
          [.plain (.mtimer socket) (interruptCells st pos (numHarts s socket) [.mTimer]) []] } := by
  simp [createFdtSocketAclint, himsic, FdtState.addNode, FdtState.readSlots]

/-- The timers of a socket. -/
theorem createTimerNodes_adds (accel : Accelerator) (socket : Nat) (pos : Int) (st : FdtState) :
    Adds st
      (if aislabAclintAllowed accel && s.haveAclint then createFdtSocketAclint s socket pos st
      else if tcgEnabled accel then createFdtSocketClint s socket pos st
      else st) (timerNodes s accel socket) := by
  unfold timerNodes
  split
  · by_cases himsic : s.aiaType = .aplicImsic
    · rw [if_pos himsic, createFdtSocketAclint_eq_of_imsic s himsic]
      exact ⟨_, rfl, rfl⟩
    · rw [if_neg himsic, createFdtSocketAclint_eq s himsic]
      exact ⟨_, rfl, rfl⟩
  · split
    · exact ⟨_, rfl, rfl⟩
    · exact Adds.refl st

theorem createFdtSocketsCpus_adds (accel : Accelerator) (pos : Int) (count : Nat)
    (st : FdtState) :
    Adds st (createFdtSocketsCpus s accel pos count st)
      ((List.range count).reverse.flatMap fun socket =>
        ((List.range (numHarts s socket)).reverse.flatMap fun cpu =>
          hartNodes s ⟨socket, cpu⟩) ++ timerNodes s accel socket) := by
  induction count generalizing pos st with
  | zero => exact Adds.refl st
  | succ socket ih =>
      rw [List.range_succ, List.reverse_append, List.reverse_singleton, List.flatMap_append,
        List.flatMap_singleton]
      exact ((createFdtSocketCpus_adds s socket _ _ st).trans
        (createTimerNodes_adds s accel socket _ _)).trans (ih _ _)

/-- The node of the IMSICs of a level. -/
def imsicFdtNode (cpus : Nat) (st : FdtState) (level : Level) (phandle : BitVec 32)
    (guestBits : Nat) : FdtNode where
  name := .imsics level
  phandle := some phandle
  links := interruptCells st 0 cpus [level.externalIrq]
  interrupts := []
  imsic := some (imsicProps s (imsicEntry level).base guestBits)

/-- `create_fdt_imsic` takes two phandles. -/
theorem createFdtImsic_eq (cpus : Nat) (st : FdtState) :
    createFdtImsic s cpus st =
      ({ st with
          phandle := st.phandle + 1 + 1
          accesses := st.accesses ++ (cellSlots 0 cpus 1 ++ cellSlots 0 cpus 1).map .read
          nodes := st.nodes ++
            [imsicFdtNode s cpus st .m st.phandle 0,
              imsicFdtNode s cpus st .s (st.phandle + 1)
                (aislabImsicNumBits (s.aiaGuests + 1))] },
        st.phandle, st.phandle + 1) := by
  simp [createFdtImsic, createFdtOneImsic, imsicFdtNode, interruptCells, FdtState.addNode,
    FdtState.readSlots, FdtState.nextPhandle]

theorem createFdtImsic_adds (cpus : Nat) (st : FdtState) :
    Adds st (createFdtImsic s cpus st).1 [.imsics .m, .imsics .s] := by
  rw [createFdtImsic_eq]
  exact ⟨_, rfl, rfl⟩

/-- What an APLIC reports to: its harts, or its IMSIC. -/
def aplicUpstream (pos : Int) (harts : Nat) (st : FdtState) (level : Level)
    (msi : BitVec 32) : List FdtLink :=
  if s.aiaType = .aplic then interruptCells st pos harts [level.externalIrq]
  else [{ property := .msiParent, phandle := msi }]

/-- `create_fdt_socket_aplic` takes two phandles, and the second is the child of the first. -/
theorem createFdtSocketAplic_eq (socket : Nat) (pos : Int) (msiM msiS : BitVec 32) (harts : Nat)
    {st : FdtState} (hchild : st.phandle + 1 ≠ 0) :
    createFdtSocketAplic s socket pos msiM msiS harts st =
      { st with
        phandle := st.phandle + 1 + 1
        xplicPhandles := Function.update st.xplicPhandles socket (st.phandle + 1)
        accesses := st.accesses ++ (cellSlots pos harts 1 ++ cellSlots pos harts 1).map .read
        nodes := st.nodes ++
          [.target (.aplic .m socket) st.phandle
              (aplicUpstream s pos harts st .m msiM ++
                [{ property := .children, phandle := st.phandle + 1 },
                  { property := .delegate 1 aislabIrqchipNumSources
                    phandle := st.phandle + 1 }]),
            .target (.aplic .s socket) (st.phandle + 1)
              (aplicUpstream s pos harts st .s msiS)] } := by
  have hliteral : ¬st.phandle + 1#32 = 0#32 := hchild
  simp [createFdtSocketAplic, createFdtOneAplic, aplicUpstream, interruptCells, hliteral,
    FdtState.addNode, FdtState.readSlots, FdtState.nextPhandle, FdtState.setXplic]

theorem createFdtSocketAplic_adds (socket : Nat) (pos : Int) (msiM msiS : BitVec 32)
    (harts : Nat) (st : FdtState) :
    Adds st (createFdtSocketAplic s socket pos msiM msiS harts st)
      [.aplic .m socket, .aplic .s socket] :=
  ⟨_, List.append_assoc _ _ _, rfl⟩

theorem createFdtSocketsXplic_adds (msiM msiS : BitVec 32) (pos : Int) (count : Nat)
    (st : FdtState) :
    Adds st (createFdtSocketsXplic s msiM msiS pos count st)
      ((List.range count).reverse.flatMap (irqchipNodes s)) := by
  induction count generalizing pos st with
  | zero => exact Adds.refl st
  | succ socket ih =>
      rw [List.range_succ, List.reverse_append, List.reverse_singleton, List.flatMap_append,
        List.flatMap_singleton, createFdtSocketsXplic]
      refine Adds.trans ?_ (ih _ _)
      unfold irqchipNodes
      by_cases htype : s.aiaType = .none
      · rw [if_pos htype, if_pos htype]
        exact ⟨_, rfl, rfl⟩
      · rw [if_neg htype, if_neg htype]
        exact createFdtSocketAplic_adds s socket _ _ _ _ _

/-- A loop that adds one node in each turn. -/
theorem foldl_addNode (node : Nat → FdtNode) (indices : List Nat) (st : FdtState) :
    indices.foldl (fun st i => st.addNode (node i)) st =
      { st with nodes := st.nodes ++ indices.map node } := by
  induction indices generalizing st with
  | nil => simp
  | cons i rest ih =>
      rw [List.foldl_cons, ih]
      simp [FdtState.addNode]

end Adds

/-! ## The whole tree -/

section Tree

variable (s : AislabState) (accel : Accelerator) (cpus : Nat)

/-- `create_fdt_sockets`, as `finalize_fdt` calls it. -/
theorem fdtSockets_adds :
    Adds initialFdt (fdtSockets s accel cpus).st
      (((List.range s.socketCount).reverse.flatMap fun socket =>
          ((List.range (numHarts s socket)).reverse.flatMap fun cpu =>
            hartNodes s ⟨socket, cpu⟩) ++ timerNodes s accel socket) ++
        imsicNodes s ++ (List.range s.socketCount).reverse.flatMap (irqchipNodes s)) := by
  have hcpus := createFdtSocketsCpus_adds s accel cpus s.socketCount initialFdt
  unfold fdtSockets createFdtSockets imsicNodes
  by_cases himsic : s.aiaType = .aplicImsic
  · simp only [if_pos himsic]
    exact (hcpus.trans (createFdtImsic_adds s cpus _)).trans
      (createFdtSocketsXplic_adds s _ _ _ _ _)
  · simp only [if_neg himsic]
    exact (hcpus.trans (Adds.refl _)).trans (createFdtSocketsXplic_adds s _ _ _ _ _)

/-- The nodes of the devices, with what they get from `create_fdt_sockets`. -/
def deviceFdtNodes (irq : Wiring (BitVec 32)) (msiPcie testPhandle : BitVec 32) : List FdtNode :=
  ((List.range 8).map fun i => deviceNode s (.virtioMmio i) irq.virtio (1 + i)) ++
    [.plain .pci ((if s.aiaType = .aplicImsic then
          [{ property := .msiParent, phandle := msiPcie }] else []) ++
        createPcieIrqMap irq.pcie) [],
      .target .test testPhandle [],
      deviceNode s .serial irq.mmio 10,
      deviceNode s .rtc irq.mmio 11,
      deviceNode s .mmioBus irq.mmio 96]

/-- The rest of `finalize_fdt`. -/
theorem finalizeFdt_fields :
    (finalizeFdt s accel cpus).nodes = (fdtSockets s accel cpus).st.nodes ++
        deviceFdtNodes s (fdtSockets s accel cpus).irq (fdtSockets s accel cpus).msiPcie
          (fdtSockets s accel cpus).st.phandle ∧
      (finalizeFdt s accel cpus).phandle = (fdtSockets s accel cpus).st.phandle + 1 ∧
      (finalizeFdt s accel cpus).intcPhandles = (fdtSockets s accel cpus).st.intcPhandles ∧
      (finalizeFdt s accel cpus).accesses = (fdtSockets s accel cpus).st.accesses := by
  unfold finalizeFdt createFdtVirtio
  simp only [foldl_addNode]
  refine ⟨?_, rfl, rfl, rfl⟩
  simp only [createFdtPcie, createFdtReset, createFdtUart, createFdtRtc, createFdtMmioBus,
    FdtState.addNode, FdtState.nextPhandle, deviceFdtNodes, List.append_assoc,
    List.cons_append, List.nil_append]

/-- A list taken downwards for each index that is taken downwards. -/
theorem perm_flatMap_reverse {Item : Type*} {down up : Nat → List Item} (count : Nat)
    (hperm : ∀ index, (down index).Perm (up index)) :
    ((List.range count).reverse.flatMap down).Perm ((List.range count).flatMap up) :=
  ((List.reverse_perm _).flatMap_right down).trans
    (List.Perm.flatMap_left _ fun index _ => hperm index)

/-- The tree has the expected nodes, each of them once. -/
theorem finalizeFdt_nodes :
    ((finalizeFdt s accel cpus).nodes.map FdtNode.name).Perm (expectedNodes s accel) := by
  obtain ⟨sockets, hsockets, hsocketNames⟩ := fdtSockets_adds s accel cpus
  have hnames : (finalizeFdt s accel cpus).nodes.map FdtNode.name =
      sockets.map FdtNode.name ++ deviceNodes := by
    rw [(finalizeFdt_fields s accel cpus).1, hsockets, List.map_append]
    rfl
  have hharts : ∀ socket, (((List.range (numHarts s socket)).reverse.flatMap fun cpu =>
      hartNodes s ⟨socket, cpu⟩) ++ timerNodes s accel socket).Perm
        ((socketHarts s socket).flatMap (hartNodes s) ++ timerNodes s accel socket) := by
    intro socket
    rw [socketHarts, List.flatMap_map]
    exact (perm_flatMap_reverse _ fun _ => .refl _).append_right _
  rw [hnames, hsocketNames, expectedNodes]
  exact (((perm_flatMap_reverse _ hharts).append_right _).append
    (perm_flatMap_reverse _ fun _ => .refl _)).append_right _

end Tree

end Board
end AislabVP
