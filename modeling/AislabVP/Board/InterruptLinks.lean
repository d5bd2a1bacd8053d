import AislabVP.Board.TreeLinks
import Mathlib.Data.List.Nodup

/-!
# The interrupt links of the device tree

Each function of `finalize_fdt` keeps `SoundTree`, and only the loop over the harts of a
socket moves its lower end (`createFdtCpu_sound`).  The harts of a board can be distributed
over its sockets in any way: what the loops have in common is where a socket's slots begin.

At the end all slots are filled, and all links refer to the nodes that they should
(`finalizeFdt_links`).
-/

namespace AislabVP
namespace Board

open Foundation

section Build

variable {s : AislabState} {cpus low n : Nat} {st st' : FdtState}

/-! ## The nodes of a socket -/

/-- One hart: its slot is the next one below. -/
theorem createFdtCpu_sound {socket cpu : Nat} (hcpus : firstSlot s s.socketCount = cpus)
    (hsocket : socket < s.socketCount) (hcpu : cpu < numHarts s socket)
    (htree : SoundTree s cpus (firstSlot s socket + cpu + 1) n st) :
    SoundTree s cpus (firstSlot s socket + cpu) (n + 2)
      (createFdtCpu s socket (firstSlot s socket) cpu st) := by
  obtain ⟨hnodes, hcounter, hintc, haccesses⟩ :=
    createFdtCpu_fields s socket cpu (firstSlot s socket) st
  have hslot : ((firstSlot s socket : Nat) : Int) + cpu = (firstSlot s socket + cpu : Nat) :=
    (Int.natCast_add _ _).symm
  rw [hslot] at hintc haccesses
  have hend : firstSlot s socket + cpu < cpus := by
    have hbelow := firstSlot_mono s hsocket
    rw [Nat.succ_eq_add_one, firstSlot_succ, hcpus] at hbelow
    omega
  obtain ⟨hphandles, hnext⟩ := htree.next_two
  obtain ⟨hnumbered, htargets, hlinks⟩ := htree.extendNodes 2 hnodes hphandles
    (List.forall_mem_cons.mpr ⟨rfl, List.forall_mem_singleton.mpr rfl⟩)
    (List.forall_mem_cons.mpr ⟨.nil, List.forall_mem_singleton.mpr .nil⟩)
  refine ⟨hnumbered, hcounter.trans hnext, htargets, hlinks, ?_, ?_⟩
  · intro hart hhart hlow
    rw [hnodes, hintc]
    by_cases hown : slotOf s hart = firstSlot s socket + cpu
    · -- The slot has one owner.
      have hsame : hart = ⟨socket, cpu⟩ :=
        slotOf_injective (mem_hartsBelow.mp hhart).2 hcpu hown
      rw [hown, Function.update_self, hsame]
      exact .second rfl
    · have hother : ((slotOf s hart : Nat) : Int) ≠ (firstSlot s socket + cpu : Nat) := by
        exact_mod_cast hown
      rw [Function.update_of_ne hother]
      exact (htree.slots hart hhart (by omega)).append _
  · rw [haccesses]
    refine FilledFrom.reads (FilledFrom.write ?_ (by omega)) ?_
    · exact_mod_cast htree.filled
    · intro index hindex
      rw [List.mem_singleton.mp hindex]
      omega

/-- The loop over the harts of a socket. -/
theorem createFdtSocketCpus_sound {socket : Nat} (hcpus : firstSlot s s.socketCount = cpus)
    (hsocket : socket < s.socketCount) :
    ∀ (count n : Nat) (st : FdtState), count ≤ numHarts s socket →
      SoundTree s cpus (firstSlot s socket + count) n st →
      SoundTree s cpus (firstSlot s socket) (n + 2 * count)
        (createFdtSocketCpus s socket (firstSlot s socket) count st) := by
  intro count
  induction count with
  | zero => exact fun _ _ _ htree => htree
  | succ cpu ih =>
      intro n st hcount htree
      have hnext := ih (n + 2) _ (Nat.le_of_succ_le hcount)
        (createFdtCpu_sound hcpus hsocket hcount htree)
      rw [Nat.add_assoc, Nat.add_comm 2, ← Nat.mul_succ] at hnext
      exact hnext

/-- A node whose links are the cells of a socket's harts. -/
theorem linksRight_of_cells {socket : Nat} {irqs : List Irq} {node : FdtNode}
    (htree : SoundTree s cpus low n st) (hsocket : socket < s.socketCount)
    (hlow : low ≤ firstSlot s socket)
    (hlinks : node.links = interruptCells st (firstSlot s socket) (numHarts s socket) irqs)
    (hexpected : expectedLinks s node.name = hartLinks s (socketHarts s socket) irqs)
    (more : List FdtNode) : LinksRight s (st.nodes ++ more) node := by
  have hcells := interruptCells_refer htree hlow (socketHarts_slots hsocket) irqs
  rw [← hlinks, ← hexpected] at hcells
  exact LinksRight.append hcells more

theorem socketSlots_inside {socket : Nat} (hcpus : firstSlot s s.socketCount = cpus)
    (hsocket : socket < s.socketCount) (hlow : low ≤ firstSlot s socket) (reads : Nat) :
    ∀ index ∈ cellSlots (firstSlot s socket) (numHarts s socket) reads,
      (low : Int) ≤ index ∧ index < cpus := by
  refine cellSlots_inside hlow ?_ reads
  rw [← firstSlot_succ, ← hcpus]
  exact firstSlot_mono s hsocket

/-- `create_fdt_socket_clint`. -/
theorem createFdtSocketClint_sound {socket : Nat} (hcpus : firstSlot s s.socketCount = cpus)
    (hsocket : socket < s.socketCount) (hlow : low ≤ firstSlot s socket)
    (htree : SoundTree s cpus low n st) :
    SoundTree s cpus low n (createFdtSocketClint s socket (firstSlot s socket) st) := by
  refine htree.extend 0 rfl rfl htree.counter rfl rfl (socketSlots_inside hcpus hsocket hlow 2)
    ?_ ?_
  · rw [List.forall_mem_singleton]
    rfl
  · rw [List.forall_mem_singleton]
    exact linksRight_of_cells htree hsocket hlow rfl rfl _

/-- `create_fdt_socket_aclint`. -/
theorem createFdtSocketAclint_sound {socket : Nat} (hcpus : firstSlot s s.socketCount = cpus)
    (hsocket : socket < s.socketCount) (hlow : low ≤ firstSlot s socket)
    (htree : SoundTree s cpus low n st) :
    SoundTree s cpus low n (createFdtSocketAclint s socket (firstSlot s socket) st) := by
  have hinside := socketSlots_inside hcpus hsocket hlow 3
  by_cases himsic : s.aiaType = .aplicImsic
  · rw [createFdtSocketAclint_eq_of_imsic s himsic]
    refine htree.extend 0 rfl rfl htree.counter rfl rfl hinside ?_ ?_
    · rw [List.forall_mem_singleton]
      rfl
    · rw [List.forall_mem_singleton]
      exact linksRight_of_cells htree hsocket hlow rfl rfl _
  · rw [createFdtSocketAclint_eq s himsic]
    refine htree.extend 0 rfl rfl htree.counter rfl rfl hinside ?_ ?_
    · rw [List.forall_mem_cons, List.forall_mem_cons, List.forall_mem_singleton]
      exact ⟨rfl, rfl, rfl⟩
    · rw [List.forall_mem_cons, List.forall_mem_cons, List.forall_mem_singleton]
      exact ⟨linksRight_of_cells htree hsocket hlow rfl rfl _,
        linksRight_of_cells htree hsocket hlow rfl rfl _,
        linksRight_of_cells htree hsocket hlow rfl rfl _⟩

/-- The timers of a socket, of any kind. -/
theorem createTimerNodes_sound {socket : Nat} (accel : Accelerator)
    (hcpus : firstSlot s s.socketCount = cpus) (hsocket : socket < s.socketCount)
    (hlow : low ≤ firstSlot s socket) (htree : SoundTree s cpus low n st) :
    SoundTree s cpus low n
      (if aislabAclintAllowed accel && s.haveAclint then
        createFdtSocketAclint s socket (firstSlot s socket) st
      else if tcgEnabled accel then createFdtSocketClint s socket (firstSlot s socket) st
      else st) := by
  split
  · exact createFdtSocketAclint_sound hcpus hsocket hlow htree
  · split
    · exact createFdtSocketClint_sound hcpus hsocket hlow htree
    · exact htree

/-- The first loop over the sockets fills all slots. -/
theorem createFdtSocketsCpus_sound (accel : Accelerator)
    (hcpus : firstSlot s s.socketCount = cpus) :
    ∀ (count n : Nat) (st : FdtState), count ≤ s.socketCount →
      SoundTree s cpus (firstSlot s count) n st →
      SoundTree s cpus 0 (n + 2 * firstSlot s count)
        (createFdtSocketsCpus s accel (firstSlot s count) count st) := by
  intro count
  induction count with
  | zero => exact fun _ _ _ htree => htree
  | succ socket ih =>
      intro n st hcount htree
      rw [createFdtSocketsCpus]
      simp only [firstSlot_pred]
      have hharts := createFdtSocketCpus_sound hcpus hcount (numHarts s socket) n st
        (Nat.le_refl _) (firstSlot_succ s socket ▸ htree)
      have hnext := ih (n + 2 * numHarts s socket) _ (Nat.le_of_succ_le hcount)
        (createTimerNodes_sound accel hcpus hcount (Nat.le_refl _) hharts)
      have hcounter : n + 2 * firstSlot s (socket + 1) =
          n + 2 * numHarts s socket + 2 * firstSlot s socket := by
        rw [firstSlot_succ]
        omega
      rw [hcounter]
      exact hnext

/-! ## The interrupt controllers -/

/-- The cells of an IMSIC refer to all harts. -/
theorem imsicCells_refer (hcpus : firstSlot s s.socketCount = cpus)
    (htree : SoundTree s cpus 0 n st) (irqs : List Irq) :
    List.Forall₂ (Refers st.nodes) (interruptCells st 0 cpus irqs)
      (hartLinks s (hartsBelow s s.socketCount) irqs) := by
  have hharts := hartsBelow_slots (Nat.le_refl s.socketCount)
  rw [hcpus] at hharts
  refine interruptCells_refer htree (Nat.le_refl 0) (hharts.imp fun slot hart howns => ?_) irqs
  rw [Nat.zero_add]
  exact howns

/-- `create_fdt_imsic`. -/
theorem createFdtImsic_sound (hcpus : firstSlot s s.socketCount = cpus)
    (htree : SoundTree s cpus 0 n st) :
    SoundTree s cpus 0 (n + 2) (createFdtImsic s cpus st).1 ∧
      Named (createFdtImsic s cpus st).1.nodes (.imsics .m) (createFdtImsic s cpus st).2.1 ∧
      Named (createFdtImsic s cpus st).1.nodes (.imsics .s) (createFdtImsic s cpus st).2.2 := by
  obtain ⟨hphandles, hnext⟩ := htree.next_two
  have hright : ∀ level phandle guestBits,
      LinksRight s st.nodes (imsicFdtNode s cpus st level phandle guestBits) :=
    fun level _ _ => imsicCells_refer hcpus htree [level.externalIrq]
  have hinside := cellSlots_inside (Nat.le_refl 0) (Nat.le_of_eq (Nat.zero_add cpus)) 1
  rw [createFdtImsic_eq]
  refine ⟨htree.extend 2 rfl hphandles hnext rfl rfl
    (List.forall_mem_append.mpr ⟨hinside, hinside⟩) ?_ ?_, ?_, ?_⟩
  · rw [List.forall_mem_cons, List.forall_mem_singleton]
    exact ⟨rfl, rfl⟩
  · rw [List.forall_mem_cons, List.forall_mem_singleton]
    exact ⟨(hright _ _ _).append _, (hright _ _ _).append _⟩
  · exact ⟨_, List.mem_append_right _ List.mem_cons_self, rfl, rfl⟩
  · exact .second rfl

/-- From a socket on, `xplic_phandles` has the phandles of the nodes to which devices
refer. -/
def XplicsNamed (s : AislabState) (socket : Nat) (st : FdtState) : Prop :=
  ∀ other, socket ≤ other → other < s.socketCount →
    Named st.nodes (irqchipNode s other) (st.xplicPhandles other)

/-- The phandles that the APLICs get are those of the IMSICs. -/
def MsiNamed (s : AislabState) (msiM msiS : BitVec 32) (st : FdtState) : Prop :=
  s.aiaType = .aplicImsic →
    Named st.nodes (.imsics .m) msiM ∧ Named st.nodes (.imsics .s) msiS

theorem MsiNamed.append {msiM msiS : BitVec 32} (hmsi : MsiNamed s msiM msiS st)
    {more : List FdtNode} (hnodes : st'.nodes = st.nodes ++ more) : MsiNamed s msiM msiS st' := by
  intro himsic
  rw [hnodes]
  exact ⟨(hmsi himsic).1.append more, (hmsi himsic).2.append more⟩

theorem XplicsNamed.next {socket : Nat} {phandle : BitVec 32} {more : List FdtNode}
    (hxplics : XplicsNamed s (socket + 1) st) (hnodes : st'.nodes = st.nodes ++ more)
    (harray : st'.xplicPhandles = Function.update st.xplicPhandles socket phandle)
    (hnamed : Named st'.nodes (irqchipNode s socket) phandle) : XplicsNamed s socket st' := by
  intro other hle hother
  rw [harray]
  by_cases hown : other = socket
  · rw [hown, Function.update_self]
    exact hnamed
  · rw [Function.update_of_ne hown, hnodes]
    exact (hxplics other (by omega) hother).append more

/-- `create_fdt_socket_plic`. -/
theorem createFdtSocketPlic_sound {socket : Nat} (hcpus : firstSlot s s.socketCount = cpus)
    (hsocket : socket < s.socketCount) (htype : s.aiaType = .none)
    (htree : SoundTree s cpus 0 n st) (hxplics : XplicsNamed s (socket + 1) st) :
    SoundTree s cpus 0 (n + 1) (createFdtSocketPlic s socket (firstSlot s socket) st) ∧
      XplicsNamed s socket (createFdtSocketPlic s socket (firstSlot s socket) st) := by
  let node := FdtNode.target (.plic socket) st.phandle
    (interruptCells st (firstSlot s socket) (numHarts s socket) [.mExt, .sExt])
  have hnodes : (createFdtSocketPlic s socket (firstSlot s socket) st).nodes =
      st.nodes ++ [node] := by
    simp [createFdtSocketPlic, FdtState.addNode, FdtState.readSlots, FdtState.nextPhandle,
      FdtState.setXplic, interruptCells, node]
  obtain ⟨hphandles, hnext⟩ := htree.next
  refine ⟨htree.extend 1 hnodes hphandles hnext rfl rfl
    (socketSlots_inside hcpus hsocket (Nat.zero_le _) 2) ?_ ?_, hxplics.next hnodes rfl ?_⟩
  · rw [List.forall_mem_singleton]
    rfl
  · rw [List.forall_mem_singleton, hnodes]
    exact linksRight_of_cells htree hsocket (Nat.zero_le _) rfl rfl _
  · rw [hnodes, irqchipNode, if_pos htype]
    exact ⟨node, by simp, rfl, rfl⟩

/-- An APLIC reports to its harts, or to its IMSIC. -/
theorem aplicUpstream_refer {socket : Nat} {level : Level} {msi : BitVec 32}
    (htree : SoundTree s cpus 0 n st) (hsocket : socket < s.socketCount)
    (htype : s.aiaType ≠ .none)
    (hmsi : s.aiaType = .aplicImsic → Named st.nodes (.imsics level) msi)
    (more : List FdtNode) :
    List.Forall₂ (Refers (st.nodes ++ more))
      (aplicUpstream s (firstSlot s socket) (numHarts s socket) st level msi)
      (if s.aiaType = .aplic then hartLinks s (socketHarts s socket) [level.externalIrq]
      else [(.msiParent, .imsics level)]) := by
  refine List.Forall₂.imp (fun _ _ hrefers => Refers.append hrefers more) ?_
  unfold aplicUpstream
  cases haia : s.aiaType with
  | none => exact absurd haia htype
  | aplic => exact interruptCells_refer htree (Nat.zero_le _) (socketHarts_slots hsocket) _
  | aplicImsic => exact .cons ⟨rfl, hmsi haia⟩ .nil

/-- `create_fdt_socket_aplic`.  The node at M level refers to the one at S level, which comes
after it. -/
theorem createFdtSocketAplic_sound {socket : Nat} {msiM msiS : BitVec 32}
    (hcpus : firstSlot s s.socketCount = cpus) (hsocket : socket < s.socketCount)
    (htype : s.aiaType ≠ .none) (hn : n + 2 < 2 ^ 32) (htree : SoundTree s cpus 0 n st)
    (hmsi : MsiNamed s msiM msiS st) (hxplics : XplicsNamed s (socket + 1) st) :
    SoundTree s cpus 0 (n + 2)
        (createFdtSocketAplic s socket (firstSlot s socket) msiM msiS (numHarts s socket) st) ∧
      XplicsNamed s socket
        (createFdtSocketAplic s socket (firstSlot s socket) msiM msiS (numHarts s socket) st) := by
  have hchild : st.phandle + 1 ≠ 0 := by
    rw [htree.counter, phandle_succ]
    intro hzero
    have hvalue := congrArg BitVec.toNat hzero
    rw [BitVec.toNat_ofNat, Nat.mod_eq_of_lt hn] at hvalue
    cases hvalue
  obtain ⟨hphandles, hnext⟩ := htree.next_two
  have hinside := socketSlots_inside hcpus hsocket (Nat.zero_le _) 1
  rw [createFdtSocketAplic_eq s socket _ _ _ _ hchild]
  refine ⟨htree.extend 2 rfl hphandles hnext rfl rfl
    (List.forall_mem_append.mpr ⟨hinside, hinside⟩) ?_ ?_, hxplics.next rfl rfl ?_⟩
  · rw [List.forall_mem_cons, List.forall_mem_singleton]
    exact ⟨rfl, rfl⟩
  · rw [List.forall_mem_cons, List.forall_mem_singleton]
    constructor
    · refine List.rel_append ?_ (.cons ⟨rfl, .second rfl⟩ (.cons ⟨rfl, .second rfl⟩ .nil))
      exact aplicUpstream_refer htree hsocket htype (fun himsic => (hmsi himsic).1) _
    · show List.Forall₂ _ _ ((if s.aiaType = .aplic then _ else _) ++ [])
      rw [List.append_nil]
      exact aplicUpstream_refer htree hsocket htype (fun himsic => (hmsi himsic).2) _
  · rw [irqchipNode, if_neg htype]
    exact .second rfl

/-- The phandles that the second loop takes for a socket. -/
def irqchipPhandles (s : AislabState) : Nat := if s.aiaType = .none then 1 else 2

/-- The second loop over the sockets. -/
theorem createFdtSocketsXplic_sound {msiM msiS : BitVec 32}
    (hcpus : firstSlot s s.socketCount = cpus) :
    ∀ (count n : Nat) (st : FdtState), count ≤ s.socketCount →
      n + irqchipPhandles s * count < 2 ^ 32 → SoundTree s cpus 0 n st →
      MsiNamed s msiM msiS st → XplicsNamed s count st →
      SoundTree s cpus 0 (n + irqchipPhandles s * count)
          (createFdtSocketsXplic s msiM msiS (firstSlot s count) count st) ∧
        MsiNamed s msiM msiS (createFdtSocketsXplic s msiM msiS (firstSlot s count) count st) ∧
        XplicsNamed s 0 (createFdtSocketsXplic s msiM msiS (firstSlot s count) count st) := by
  intro count
  induction count with
  | zero => exact fun _ _ _ _ htree hmsi hxplics => ⟨htree, hmsi, hxplics⟩
  | succ socket ih =>
      intro n st hcount hn htree hmsi hxplics
      have hsucc : n + irqchipPhandles s * (socket + 1) =
          n + irqchipPhandles s + irqchipPhandles s * socket := by
        rw [Nat.mul_succ]
        omega
      rw [createFdtSocketsXplic]
      simp only [firstSlot_pred]
      rw [hsucc] at hn ⊢
      by_cases htype : s.aiaType = .none
      · have hone : irqchipPhandles s = 1 := if_pos htype
        rw [if_pos htype]
        obtain ⟨hnext, hxplicsNext⟩ :=
          createFdtSocketPlic_sound hcpus hcount htype htree hxplics
        refine ih _ _ (Nat.le_of_succ_le hcount) hn ?_ ?_ hxplicsNext
        · rw [hone]
          exact hnext
        · exact fun himsic => absurd (htype.symm.trans himsic) (by decide)
      · have htwo : irqchipPhandles s = 2 := if_neg htype
        rw [if_neg htype]
        have hless : n + 2 < 2 ^ 32 := by omega
        obtain ⟨hnext, hxplicsNext⟩ :=
          createFdtSocketAplic_sound hcpus hcount htype hless htree hmsi hxplics
        refine ih _ _ (Nat.le_of_succ_le hcount) hn ?_ ?_ hxplicsNext
        · rw [htwo]
          exact hnext
        · obtain ⟨more, hnodes, -⟩ := createFdtSocketAplic_adds s socket (firstSlot s socket)
            msiM msiS (numHarts s socket) st
          exact hmsi.append hnodes

/-! ## The devices -/

/-- The socket that a class of devices is wired to has a node with the phandle. -/
def WiredTo (s : AislabState) (nodes : List FdtNode) (chip : Option Nat) (phandle : BitVec 32) :
    Prop :=
  ∃ socket, chip = some socket ∧ Named nodes (irqchipNode s socket) phandle

/-- The conditional assignments, when there is a socket: devices take the last socket that
their class may use. -/
theorem assignBySocket_eq {Value : Type*} (chip : Nat → Value) (last : Nat)
    (initial : Wiring Value) :
    assignBySocket chip (last + 1) initial =
      { mmio := chip 0, virtio := chip (min 1 last), pcie := chip (min 2 last) } := by
  induction last with
  | zero => rfl
  | succ last ih =>
      unfold assignBySocket at ih ⊢
      rw [List.range_succ, List.foldl_append, ih]
      rcases last with - | - | last
      · rfl
      · rfl
      · -- From the fourth socket on nothing is assigned.
        have hvirtio : min 1 (last + 2) = min 1 (last + 3) := by omega
        have hpcie : min 2 (last + 2) = min 2 (last + 3) := by omega
        rw [List.foldl_cons, List.foldl_nil, hvirtio, hpcie]
        rfl

theorem irqchipLinks_refer {nodes : List FdtNode} {chip : Option Nat} {phandle : BitVec 32}
    (hwired : WiredTo s nodes chip phandle) (properties : List LinkProperty) :
    List.Forall₂ (Refers nodes)
      (properties.map fun property => { property := property, phandle := phandle })
      (irqchipLinks s chip properties) := by
  obtain ⟨socket, rfl, hnamed⟩ := hwired
  rw [irqchipLinks, List.forall₂_map_left_iff, List.forall₂_map_right_iff, List.forall₂_same]
  exact fun property _ => ⟨rfl, hnamed⟩

/-- The loops of `create_pcie_irq_map` make the rows of the swizzle. -/
theorem createPcieIrqMap_eq (phandle : BitVec 32) :
    createPcieIrqMap phandle =
      swizzledRows.map fun property => { property := property, phandle := phandle } := rfl

/-! ## The whole tree -/

/-- Every link of the tree is right: the tree has the expected nodes, phandles are distinct
and not zero, `intc_phandles` is used properly, and the phandles for the devices belong to
the sockets that the devices are wired to. -/
structure InterruptLinks (s : AislabState) (accel : Accelerator) (cpus : Nat) : Prop where
  nodes : ((finalizeFdt s accel cpus).nodes.map FdtNode.name).Perm (expectedNodes s accel)
  targets : ∀ node ∈ (finalizeFdt s accel cpus).nodes, node.phandle.isSome = node.name.isTarget
  distinct : (phandles (finalizeFdt s accel cpus).nodes).Nodup
  nonzero : 0 ∉ phandles (finalizeFdt s accel cpus).nodes
  slots : FilledFrom 0 cpus (finalizeFdt s accel cpus).accesses
  links : ∀ node ∈ (finalizeFdt s accel cpus).nodes,
    LinksRight s (finalizeFdt s accel cpus).nodes node
  mmio : WiredTo s (finalizeFdt s accel cpus).nodes (machineInitIrqchips s).mmio
    (fdtSockets s accel cpus).irq.mmio
  virtio : WiredTo s (finalizeFdt s accel cpus).nodes (machineInitIrqchips s).virtio
    (fdtSockets s accel cpus).irq.virtio
  pcie : WiredTo s (finalizeFdt s accel cpus).nodes (machineInitIrqchips s).pcie
    (fdtSockets s accel cpus).irq.pcie

/-- Nothing has been handed out, and no slot is filled. -/
theorem initialFdt_sound (s : AislabState) :
    SoundTree s (firstSlot s s.socketCount) (firstSlot s s.socketCount) 0 initialFdt where
  numbered := rfl
  counter := rfl
  targets := fun _ hnode => absurd hnode List.not_mem_nil
  links := fun _ hnode => absurd hnode List.not_mem_nil
  slots := by
    intro hart hhart hlow
    obtain ⟨hsocket, hcpu⟩ := mem_hartsBelow.mp hhart
    have hbelow := slotOf_lt hcpu
    have hmono : firstSlot s (hart.socket + 1) ≤ firstSlot s s.socketCount :=
      firstSlot_mono s hsocket
    omega
  filled := filledFrom_nil _

/-- The phandles of the harts, the IMSICs and the interrupt controllers of the sockets. -/
def socketPhandles (s : AislabState) : Nat :=
  2 * firstSlot s s.socketCount + (imsicNodes s).length + irqchipPhandles s * s.socketCount

theorem socketPhandles_le (s : AislabState) (hmax : s.socketCount ≤ aislabSocketsMax) :
    socketPhandles s ≤ 1034 := by
  have hharts : firstSlot s s.socketCount ≤ 512 := s.harts_le
  have hsockets : s.socketCount ≤ 4 := hmax
  have himsics : (imsicNodes s).length ≤ 2 := by
    unfold imsicNodes
    split <;> decide
  have hirqchips : irqchipPhandles s ≤ 2 := by
    unfold irqchipPhandles
    split <;> omega
  have hproduct : irqchipPhandles s * s.socketCount ≤ 2 * 4 := Nat.mul_le_mul hirqchips hsockets
  unfold socketPhandles
  omega

/-- `create_fdt_sockets`. -/
theorem fdtSockets_sound (s : AislabState) (accel : Accelerator)
    (hmax : s.socketCount ≤ aislabSocketsMax) :
    SoundTree s (firstSlot s s.socketCount) 0 (socketPhandles s)
        (fdtSockets s accel (firstSlot s s.socketCount)).st ∧
      XplicsNamed s 0 (fdtSockets s accel (firstSlot s s.socketCount)).st ∧
      (s.aiaType = .aplicImsic →
        Named (fdtSockets s accel (firstSlot s s.socketCount)).st.nodes (.imsics .s)
          (fdtSockets s accel (firstSlot s s.socketCount)).msiPcie) := by
  have hcount := Nat.le_refl s.socketCount
  have hbound := socketPhandles_le s hmax
  have hnone : ∀ st, XplicsNamed s s.socketCount st :=
    fun st other hle hother => absurd hother (Nat.not_lt.mpr hle)
  have hcpus := createFdtSocketsCpus_sound accel rfl s.socketCount 0 initialFdt hcount
    (initialFdt_sound s)
  rw [Nat.zero_add] at hcpus
  unfold socketPhandles at hbound ⊢
  unfold fdtSockets createFdtSockets imsicNodes at *
  by_cases himsic : s.aiaType = .aplicImsic
  · simp only [if_pos himsic, List.length_cons, List.length_nil] at hbound ⊢
    obtain ⟨hmsi, hnamedM, hnamedS⟩ := createFdtImsic_sound rfl hcpus
    obtain ⟨htree, hmsiNamed, hxplics⟩ := createFdtSocketsXplic_sound rfl s.socketCount _ _
      hcount (by omega) hmsi (fun _ => ⟨hnamedM, hnamedS⟩) (hnone _)
    exact ⟨htree, hxplics, fun himsic => (hmsiNamed himsic).2⟩
  · simp only [if_neg himsic, List.length_nil] at hbound ⊢
    obtain ⟨htree, -, hxplics⟩ := createFdtSocketsXplic_sound rfl s.socketCount _ _ hcount
      (by omega) hcpus (fun h => absurd h himsic) (hnone _)
    exact ⟨htree, hxplics, fun h => absurd h himsic⟩

theorem fdtSockets_irq (s : AislabState) (accel : Accelerator) (cpus : Nat) :
    (fdtSockets s accel cpus).irq =
      assignBySocket (fdtSockets s accel cpus).st.xplicPhandles s.socketCount
        { mmio := 1, virtio := 1, pcie := 1 } := by
  unfold fdtSockets createFdtSockets
  split <;> rfl

/-- The phandles that `create_fdt_sockets` returns belong to the sockets that
`aislab_machine_init` chose. -/
theorem fdtSockets_wired (s : AislabState) (accel : Accelerator) (cpus : Nat)
    (hsockets : 1 ≤ s.socketCount) (hxplics : XplicsNamed s 0 (fdtSockets s accel cpus).st) :
    WiredTo s (fdtSockets s accel cpus).st.nodes (machineInitIrqchips s).mmio
        (fdtSockets s accel cpus).irq.mmio ∧
      WiredTo s (fdtSockets s accel cpus).st.nodes (machineInitIrqchips s).virtio
        (fdtSockets s accel cpus).irq.virtio ∧
      WiredTo s (fdtSockets s accel cpus).st.nodes (machineInitIrqchips s).pcie
        (fdtSockets s accel cpus).irq.pcie := by
  obtain ⟨last, hlast⟩ := Nat.exists_eq_add_of_le' hsockets
  rw [fdtSockets_irq, machineInitIrqchips, hlast, assignBySocket_eq, assignBySocket_eq]
  exact ⟨⟨0, rfl, hxplics 0 (Nat.zero_le _) (by omega)⟩,
    ⟨min 1 last, rfl, hxplics _ (Nat.zero_le _) (by omega)⟩,
    ⟨min 2 last, rfl, hxplics _ (Nat.zero_le _) (by omega)⟩⟩

theorem WiredTo.append {nodes : List FdtNode} {chip : Option Nat} {phandle : BitVec 32}
    (hwired : WiredTo s nodes chip phandle) (more : List FdtNode) :
    WiredTo s (nodes ++ more) chip phandle := by
  obtain ⟨socket, hchip, hnamed⟩ := hwired
  exact ⟨socket, hchip, hnamed.append more⟩

/-- The nodes of the devices have the right links. -/
theorem deviceFdtNodes_right {nodes : List FdtNode} {irq : Wiring (BitVec 32)}
    {msiPcie testPhandle : BitVec 32} (hmmio : WiredTo s nodes (machineInitIrqchips s).mmio irq.mmio)
    (hvirtio : WiredTo s nodes (machineInitIrqchips s).virtio irq.virtio)
    (hpcie : WiredTo s nodes (machineInitIrqchips s).pcie irq.pcie)
    (hmsi : s.aiaType = .aplicImsic → Named nodes (.imsics .s) msiPcie) :
    ∀ node ∈ deviceFdtNodes s irq msiPcie testPhandle, LinksRight s nodes node := by
  intro node hnode
  rcases List.mem_append.mp hnode with hnode | hnode
  · obtain ⟨i, -, rfl⟩ := List.mem_map.mp hnode
    exact irqchipLinks_refer hvirtio [.interruptParent]
  · simp only [List.mem_cons, List.not_mem_nil, or_false] at hnode
    rcases hnode with rfl | rfl | rfl | rfl | rfl
    · refine List.rel_append ?_ ?_
      · split
        · rename_i himsic
          exact .cons ⟨rfl, hmsi himsic⟩ .nil
        · exact .nil
      · rw [createPcieIrqMap_eq]
        exact irqchipLinks_refer hpcie _
    · exact .nil
    · exact irqchipLinks_refer hmmio [.interruptParent]
    · exact irqchipLinks_refer hmmio [.interruptParent]
    · exact irqchipLinks_refer hmmio [.interruptParent]

/-- `finalize_fdt`: one more phandle, for the test device. -/
theorem finalizeFdt_sound (s : AislabState) (accel : Accelerator) (hsockets : 1 ≤ s.socketCount)
    (hmax : s.socketCount ≤ aislabSocketsMax) :
    SoundTree s (firstSlot s s.socketCount) 0 (socketPhandles s + 1)
      (finalizeFdt s accel (firstSlot s s.socketCount)) := by
  obtain ⟨htree, hxplics, hmsi⟩ := fdtSockets_sound s accel hmax
  obtain ⟨hmmio, hvirtio, hpcie⟩ := fdtSockets_wired s accel _ hsockets hxplics
  obtain ⟨hnodes, hcounter, hintc, haccesses⟩ :=
    finalizeFdt_fields s accel (firstSlot s s.socketCount)
  have hreads : (finalizeFdt s accel (firstSlot s s.socketCount)).accesses =
      (fdtSockets s accel (firstSlot s s.socketCount)).st.accesses ++
        ([] : List Int).map .read := by
    rw [haccesses, List.map_nil, List.append_nil]
  obtain ⟨hphandles, hnext⟩ := htree.next
  refine htree.extend 1 hnodes hphandles (hcounter.trans hnext) hintc hreads
    (fun _ hindex => absurd hindex List.not_mem_nil) ?_ ?_
  · intro node hnode
    rcases List.mem_append.mp hnode with hnode | hnode
    · obtain ⟨i, -, rfl⟩ := List.mem_map.mp hnode
      rfl
    · simp only [List.mem_cons, List.not_mem_nil, or_false] at hnode
      rcases hnode with rfl | rfl | rfl | rfl | rfl <;> rfl
  · rw [hnodes]
    exact deviceFdtNodes_right (hmmio.append _) (hvirtio.append _) (hpcie.append _)
      fun himsic => (hmsi himsic).append _

/-- Phandles in sequence are distinct and not zero. -/
theorem numbered_distinct {n : Nat} (hn : n < 2 ^ 32) :
    ((List.range n).map fun k => BitVec.ofNat 32 (k + 1)).Nodup ∧
      0 ∉ (List.range n).map fun k => BitVec.ofNat 32 (k + 1) := by
  have hvalue : ∀ k ∈ List.range n, (BitVec.ofNat 32 (k + 1)).toNat = k + 1 := by
    intro k hk
    have hless := List.mem_range.mp hk
    rw [BitVec.toNat_ofNat, Nat.mod_eq_of_lt (by omega)]
  constructor
  · refine List.Nodup.map_on ?_ List.nodup_range
    intro first hfirst second hsecond hsame
    have hvalues := congrArg BitVec.toNat hsame
    rw [hvalue first hfirst, hvalue second hsecond] at hvalues
    exact Nat.succ.inj hvalues
  · intro hzero
    obtain ⟨k, hk, heq⟩ := List.mem_map.mp hzero
    have hzeroValue := congrArg BitVec.toNat heq
    rw [hvalue k hk] at hzeroValue
    cases hzeroValue

end Build

/-- On a board with one to four sockets, whose harts are those of the machine, every link of
the device tree is right. -/
theorem finalizeFdt_links {s : AislabState} {cpus : Nat} (accel : Accelerator)
    (hsockets : 1 ≤ s.socketCount) (hmax : s.socketCount ≤ aislabSocketsMax)
    (hcpus : ((List.range s.socketCount).map (numHarts s)).sum = cpus) :
    InterruptLinks s accel cpus := by
  obtain rfl : firstSlot s s.socketCount = cpus := hcpus
  have htree := finalizeFdt_sound s accel hsockets hmax
  obtain ⟨-, hxplics, -⟩ := fdtSockets_sound s accel hmax
  obtain ⟨hmmio, hvirtio, hpcie⟩ := fdtSockets_wired s accel _ hsockets hxplics
  have hnodes := (finalizeFdt_fields s accel (firstSlot s s.socketCount)).1
  have hbound := socketPhandles_le s hmax
  have hless : socketPhandles s + 1 < 2 ^ 32 := by omega
  obtain ⟨hdistinct, hnonzero⟩ := numbered_distinct hless
  rw [← htree.numbered] at hdistinct hnonzero
  exact
    { nodes := finalizeFdt_nodes s accel _
      targets := htree.targets
      distinct := hdistinct
      nonzero := hnonzero
      slots := htree.filled
      links := htree.links
      mmio := hnodes ▸ hmmio.append _
      virtio := hnodes ▸ hvirtio.append _
      pcie := hnodes ▸ hpcie.append _ }

/-- Three sockets with one, three and no harts. -/
def unevenBoard : AislabState where
  haveAclint := true
  aiaType := .aplic
  aiaGuests := 0
  is32bit := false
  ramSize := 0x80000000
  socketCount := 3
  checkHartids := fun _ => true
  firstHartid := fun socket => if socket = 0 then 0 else 1
  hartCount := fun socket => if socket = 0 then 1 else if socket = 1 then 3 else 0
  guests_le := by decide
  harts_le := by decide

theorem finalizeFdt_links_unevenBoard : InterruptLinks unevenBoard .tcg 4 :=
  finalizeFdt_links .tcg (by decide) (by decide) (by decide)

end Board
end AislabVP
