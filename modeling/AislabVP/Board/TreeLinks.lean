import AislabVP.Board.TreeNodes
import Mathlib.Data.List.Forall2

/-!
# The links between the nodes of the device tree

Every property of the tree that refers to another node by its phandle is to refer to the
right one: the timers and interrupt controllers of a socket to its harts in their order, the
IMSICs to all harts, the devices to the interrupt controller of the socket to which
`aislab_machine_init` wires them.  `expectedLinks` says which nodes these are.

The functions of the source fill `intc_phandles` from its end, and twice count down the place
at which a socket's part begins.  `SoundTree low n` is what holds while they do: the slots
from `low` on hold the phandles of their harts' interrupt controllers, the first `n`
phandles have been handed out in the order of the nodes, and all links are right.
-/

namespace AislabVP
namespace Board

open Foundation

/-! ## What the links should be -/

/-- The place in `intc_phandles` at which a socket's part begins. -/
def firstSlot (s : AislabState) (socket : Nat) : Nat :=
  ((List.range socket).map (numHarts s)).sum

/-- The place of a hart. -/
def slotOf (s : AislabState) (hart : Hart) : Nat := firstSlot s hart.socket + hart.cpu

/-- The harts of the first sockets, in order. -/
def hartsBelow (s : AislabState) (socketCount : Nat) : List Hart :=
  (List.range socketCount).flatMap (socketHarts s)

/-- The links to some interrupts of some harts. -/
def hartLinks (s : AislabState) (harts : List Hart) (irqs : List Irq) :
    List (LinkProperty × NodeName) :=
  harts.flatMap fun hart =>
    irqs.map fun irq => (.interruptsExtended irq, .intc hart (hartid s hart))

/-- The node to which the devices of a socket refer. -/
def irqchipNode (s : AislabState) (socket : Nat) : NodeName :=
  if s.aiaType = .none then .plic socket else .aplic .s socket

/-- Links to the node of the interrupt controller that a device is wired to. -/
def irqchipLinks (s : AislabState) (chip : Option Nat) (properties : List LinkProperty) :
    List (LinkProperty × NodeName) :=
  match chip with
  | none => []
  | some socket => properties.map fun property => (property, irqchipNode s socket)

/-- The links of an APLIC: to its harts or its IMSIC, and from M level to S level. -/
def aplicLinks (s : AislabState) (level : Level) (socket : Nat) : List (LinkProperty × NodeName) :=
  (if s.aiaType = .aplic then hartLinks s (socketHarts s socket) [level.externalIrq]
    else [(.msiParent, .imsics level)]) ++
  match level with
  | .m =>
      [(.children, .aplic .s socket), (.delegate 1 aislabIrqchipNumSources, .aplic .s socket)]
  | .s => []

/-- The rows of `interrupt-map`: a slot's first pin has the line of the slot, and the next
pins those behind it, in a circle. -/
def swizzledRows : List LinkProperty :=
  [ .interruptMap 0x00 1 0x20, .interruptMap 0x00 2 0x21,
    .interruptMap 0x00 3 0x22, .interruptMap 0x00 4 0x23,
    .interruptMap 0x08 1 0x21, .interruptMap 0x08 2 0x22,
    .interruptMap 0x08 3 0x23, .interruptMap 0x08 4 0x20,
    .interruptMap 0x10 1 0x22, .interruptMap 0x10 2 0x23,
    .interruptMap 0x10 3 0x20, .interruptMap 0x10 4 0x21,
    .interruptMap 0x18 1 0x23, .interruptMap 0x18 2 0x20,
    .interruptMap 0x18 3 0x21, .interruptMap 0x18 4 0x22 ]

/-- The nodes to which the links of a node should refer. -/
def expectedLinks (s : AislabState) : NodeName → List (LinkProperty × NodeName)
  | .clint socket => hartLinks s (socketHarts s socket) [.mSoft, .mTimer]
  | .mswi socket => hartLinks s (socketHarts s socket) [.mSoft]
  | .mtimer socket => hartLinks s (socketHarts s socket) [.mTimer]
  | .sswi socket => hartLinks s (socketHarts s socket) [.sSoft]
  | .plic socket => hartLinks s (socketHarts s socket) [.mExt, .sExt]
  | .aplic level socket => aplicLinks s level socket
  | .imsics level => hartLinks s (hartsBelow s s.socketCount) [level.externalIrq]
  | .virtioMmio _ => irqchipLinks s (machineInitIrqchips s).virtio [.interruptParent]
  | .pci =>
      (if s.aiaType = .aplicImsic then [(.msiParent, .imsics .s)] else []) ++
        irqchipLinks s (machineInitIrqchips s).pcie swizzledRows
  | .serial | .rtc | .mmioBus => irqchipLinks s (machineInitIrqchips s).mmio [.interruptParent]
  | .cpu _ _ | .intc _ _ | .test => []

/-- The nodes that have a phandle. -/
def NodeName.isTarget : NodeName → Bool
  | .cpu _ _ | .intc _ _ | .plic _ | .aplic _ _ | .imsics _ | .test => true
  | .clint _ | .mswi _ | .mtimer _ | .sswi _ | .virtioMmio _ | .pci | .serial | .rtc
  | .mmioBus => false

/-- A node of this name has the phandle. -/
def Named (nodes : List FdtNode) (name : NodeName) (phandle : BitVec 32) : Prop :=
  ∃ node ∈ nodes, node.name = name ∧ node.phandle = some phandle

/-- The link is what it should be. -/
def Refers (nodes : List FdtNode) (link : FdtLink) (expected : LinkProperty × NodeName) : Prop :=
  link.property = expected.1 ∧ Named nodes expected.2 link.phandle

/-- The links of a node are what they should be, in their order. -/
def LinksRight (s : AislabState) (nodes : List FdtNode) (node : FdtNode) : Prop :=
  List.Forall₂ (Refers nodes) node.links (expectedLinks s node.name)

/-- The phandles of the tree, in the order of its nodes. -/
def phandles (nodes : List FdtNode) : List (BitVec 32) := nodes.filterMap FdtNode.phandle

/-! ## Slots -/

section Slots

variable {s : AislabState} {socket : Nat} {hart : Hart}

theorem firstSlot_succ (s : AislabState) (socket : Nat) :
    firstSlot s (socket + 1) = firstSlot s socket + numHarts s socket := by
  rw [firstSlot, List.range_succ, List.map_append, List.sum_append]
  simp [firstSlot]

/-- The loops over the sockets count the place down. -/
theorem firstSlot_pred (s : AislabState) (socket : Nat) :
    ((firstSlot s (socket + 1) : Nat) : Int) - numHarts s socket = (firstSlot s socket : Nat) := by
  rw [firstSlot_succ]
  omega

theorem firstSlot_mono (s : AislabState) {first second : Nat} (hle : first ≤ second) :
    firstSlot s first ≤ firstSlot s second := by
  obtain ⟨more, rfl⟩ := Nat.exists_eq_add_of_le hle
  induction more with
  | zero => exact Nat.le_refl _
  | succ more ih =>
      rw [← Nat.add_assoc, firstSlot_succ]
      exact Nat.le_trans (ih (Nat.le_add_right _ _)) (Nat.le_add_right _ _)

/-- A hart of a socket has a slot of the socket's part. -/
theorem slotOf_lt (hcpu : hart.cpu < numHarts s hart.socket) :
    slotOf s hart < firstSlot s (hart.socket + 1) := by
  rw [slotOf, firstSlot_succ]
  omega

/-- No two harts have the same slot. -/
theorem slotOf_injective {other : Hart} (hcpu : hart.cpu < numHarts s hart.socket)
    (hother : other.cpu < numHarts s other.socket) (hslot : slotOf s hart = slotOf s other) :
    hart = other := by
  have hbelow := slotOf_lt hcpu
  have hotherBelow := slotOf_lt hother
  have hsockets : hart.socket = other.socket := by
    by_contra hne
    rcases Nat.lt_or_gt_of_ne hne with hless | hmore
    · have hmono : firstSlot s (hart.socket + 1) ≤ firstSlot s other.socket :=
        firstSlot_mono s hless
      have hfirst : firstSlot s other.socket ≤ slotOf s other := Nat.le_add_right _ _
      omega
    · have hmono : firstSlot s (other.socket + 1) ≤ firstSlot s hart.socket :=
        firstSlot_mono s hmore
      have hfirst : firstSlot s hart.socket ≤ slotOf s hart := Nat.le_add_right _ _
      omega
  have hcpus : hart.cpu = other.cpu := by
    rw [slotOf, slotOf, hsockets] at hslot
    omega
  cases hart
  cases other
  simp_all

theorem mem_socketHarts : hart ∈ socketHarts s socket ↔
    hart.socket = socket ∧ hart.cpu < numHarts s socket := by
  rw [socketHarts, List.mem_map]
  constructor
  · rintro ⟨cpu, hcpu, rfl⟩
    exact ⟨rfl, List.mem_range.mp hcpu⟩
  · rintro ⟨rfl, hcpu⟩
    exact ⟨hart.cpu, List.mem_range.mpr hcpu, rfl⟩

theorem mem_hartsBelow {socketCount : Nat} : hart ∈ hartsBelow s socketCount ↔
    hart.socket < socketCount ∧ hart.cpu < numHarts s hart.socket := by
  rw [hartsBelow, List.mem_flatMap]
  simp only [List.mem_range, mem_socketHarts]
  constructor
  · rintro ⟨socket, hsocket, rfl, hcpu⟩
    exact ⟨hsocket, hcpu⟩
  · rintro ⟨hsocket, hcpu⟩
    exact ⟨hart.socket, hsocket, rfl, hcpu⟩

/-- The slot is that of a hart of the board. -/
def OwnsSlot (s : AislabState) (slot : Nat) (hart : Hart) : Prop :=
  hart ∈ hartsBelow s s.socketCount ∧ slotOf s hart = slot

/-- The harts of a socket have the slots of its part, in order. -/
theorem socketHarts_slots (hsocket : socket < s.socketCount) :
    List.Forall₂ (fun cpu hart => OwnsSlot s (firstSlot s socket + cpu) hart)
      (List.range (numHarts s socket)) (socketHarts s socket) := by
  rw [socketHarts, List.forall₂_map_right_iff, List.forall₂_same]
  exact fun cpu hcpu => ⟨mem_hartsBelow.mpr ⟨hsocket, List.mem_range.mp hcpu⟩, rfl⟩

/-- All harts have all slots, in order. -/
theorem hartsBelow_slots {socketCount : Nat} (hcount : socketCount ≤ s.socketCount) :
    List.Forall₂ (OwnsSlot s) (List.range (firstSlot s socketCount))
      (hartsBelow s socketCount) := by
  induction socketCount with
  | zero => exact .nil
  | succ socket ih =>
      rw [firstSlot_succ, List.range_add, hartsBelow, List.range_succ, List.flatMap_append]
      refine List.rel_append (ih (Nat.le_of_succ_le hcount)) ?_
      rw [List.flatMap_singleton, List.forall₂_map_left_iff]
      exact socketHarts_slots hcount

end Slots

/-! ## What holds while the tree is built -/

theorem Named.append {nodes : List FdtNode} {name : NodeName} {phandle : BitVec 32}
    (hnamed : Named nodes name phandle) (more : List FdtNode) :
    Named (nodes ++ more) name phandle := by
  obtain ⟨node, hnode, hname⟩ := hnamed
  exact ⟨node, List.mem_append_left _ hnode, hname⟩

/-- The second of two new nodes. -/
theorem Named.second {nodes : List FdtNode} {first second : FdtNode} {phandle : BitVec 32}
    (hphandle : second.phandle = some phandle) :
    Named (nodes ++ [first, second]) second.name phandle :=
  ⟨second, List.mem_append_right _ (List.mem_cons_of_mem _ (List.mem_singleton_self _)),
    rfl, hphandle⟩

theorem Refers.append {nodes : List FdtNode} {link : FdtLink}
    {expected : LinkProperty × NodeName} (hrefers : Refers nodes link expected)
    (more : List FdtNode) : Refers (nodes ++ more) link expected :=
  ⟨hrefers.1, hrefers.2.append more⟩

theorem LinksRight.append {s : AislabState} {nodes : List FdtNode} {node : FdtNode}
    (hlinks : LinksRight s nodes node) (more : List FdtNode) :
    LinksRight s (nodes ++ more) node :=
  List.Forall₂.imp (fun _ _ hrefers => hrefers.append more) hlinks

/-- The slots from `low` on are filled, and `n` phandles have been handed out. -/
structure SoundTree (s : AislabState) (cpus low n : Nat) (st : FdtState) : Prop where
  numbered : phandles st.nodes = (List.range n).map fun k => BitVec.ofNat 32 (k + 1)
  counter : st.phandle = BitVec.ofNat 32 (n + 1)
  targets : ∀ node ∈ st.nodes, node.phandle.isSome = node.name.isTarget
  links : ∀ node ∈ st.nodes, LinksRight s st.nodes node
  slots : ∀ hart ∈ hartsBelow s s.socketCount, low ≤ slotOf s hart →
    Named st.nodes (.intc hart (hartid s hart)) (st.intcPhandles (slotOf s hart))
  filled : FilledFrom low cpus st.accesses

section Build

variable {s : AislabState} {cpus low n : Nat} {st st' : FdtState}

theorem phandle_succ (n : Nat) : BitVec.ofNat 32 n + 1 = BitVec.ofNat 32 (n + 1) :=
  (BitVec.ofNat_add n 1).symm

/-- The next phandle, and the counter behind it. -/
theorem SoundTree.next (htree : SoundTree s cpus low n st) :
    [st.phandle] = ((List.range 1).map fun j => BitVec.ofNat 32 (n + j + 1)) ∧
      st.phandle + 1 = BitVec.ofNat 32 (n + 1 + 1) := by
  rw [htree.counter, phandle_succ]
  exact ⟨rfl, rfl⟩

/-- The next two phandles, and the counter behind them. -/
theorem SoundTree.next_two (htree : SoundTree s cpus low n st) :
    [st.phandle, st.phandle + 1] = ((List.range 2).map fun j => BitVec.ofNat 32 (n + j + 1)) ∧
      st.phandle + 1 + 1 = BitVec.ofNat 32 (n + 2 + 1) := by
  rw [htree.counter, phandle_succ, phandle_succ]
  exact ⟨rfl, rfl⟩

/-- New nodes that take the next `k` phandles. -/
theorem SoundTree.extendNodes (htree : SoundTree s cpus low n st) {news : List FdtNode} (k : Nat)
    (hnodes : st'.nodes = st.nodes ++ news)
    (hphandles : phandles news = (List.range k).map fun j => BitVec.ofNat 32 (n + j + 1))
    (htargets : ∀ node ∈ news, node.phandle.isSome = node.name.isTarget)
    (hlinks : ∀ node ∈ news, LinksRight s st'.nodes node) :
    phandles st'.nodes = ((List.range (n + k)).map fun k => BitVec.ofNat 32 (k + 1)) ∧
      (∀ node ∈ st'.nodes, node.phandle.isSome = node.name.isTarget) ∧
      ∀ node ∈ st'.nodes, LinksRight s st'.nodes node := by
  rw [hnodes] at hlinks ⊢
  refine ⟨?_, List.forall_mem_append.mpr ⟨htree.targets, htargets⟩,
    List.forall_mem_append.mpr ⟨?_, hlinks⟩⟩
  · rw [phandles, List.filterMap_append, ← phandles, ← phandles, htree.numbered, hphandles,
      List.range_add, List.map_append, List.map_map]
    rfl
  · exact fun node hnode => (htree.links node hnode).append news

/-- Such nodes, when they read filled slots. -/
theorem SoundTree.extend (htree : SoundTree s cpus low n st) {news : List FdtNode} (k : Nat)
    {indices : List Int} (hnodes : st'.nodes = st.nodes ++ news)
    (hphandles : phandles news = (List.range k).map fun j => BitVec.ofNat 32 (n + j + 1))
    (hcounter : st'.phandle = BitVec.ofNat 32 (n + k + 1))
    (hintc : st'.intcPhandles = st.intcPhandles)
    (haccesses : st'.accesses = st.accesses ++ indices.map .read)
    (hindices : ∀ index ∈ indices, (low : Int) ≤ index ∧ index < cpus)
    (htargets : ∀ node ∈ news, node.phandle.isSome = node.name.isTarget)
    (hlinks : ∀ node ∈ news, LinksRight s st'.nodes node) :
    SoundTree s cpus low (n + k) st' := by
  obtain ⟨hnumbered, htargets, hlinks⟩ := htree.extendNodes k hnodes hphandles htargets hlinks
  refine ⟨hnumbered, hcounter, htargets, hlinks, ?_, ?_⟩
  · intro hart hhart hslot
    rw [hnodes, hintc]
    exact (htree.slots hart hhart hslot).append news
  · rw [haccesses]
    exact htree.filled.reads hindices

/-- The cells of a loop over harts refer to the harts' interrupt controllers. -/
theorem interruptCells_refer (htree : SoundTree s cpus low n st) {pos count : Nat}
    (hpos : low ≤ pos) {harts : List Hart}
    (hharts : List.Forall₂ (fun cpu hart => OwnsSlot s (pos + cpu) hart) (List.range count) harts)
    (irqs : List Irq) :
    List.Forall₂ (Refers st.nodes) (interruptCells st pos count irqs)
      (hartLinks s harts irqs) := by
  refine List.rel_flatMap hharts ?_
  intro cpu hart howns
  rw [List.forall₂_map_left_iff, List.forall₂_map_right_iff, List.forall₂_same]
  obtain ⟨hhart, hslot⟩ := howns
  have hnamed := htree.slots hart hhart (by omega)
  rw [hslot, Int.natCast_add] at hnamed
  exact fun irq _ => ⟨rfl, hnamed⟩

/-- The slots that such a loop reads are filled. -/
theorem cellSlots_inside {pos count : Nat} (hpos : low ≤ pos) (hend : pos + count ≤ cpus)
    (reads : Nat) : ∀ index ∈ cellSlots pos count reads, (low : Int) ≤ index ∧ index < cpus := by
  intro index hindex
  rw [cellSlots, List.mem_flatMap] at hindex
  obtain ⟨cpu, hcpu, hindex⟩ := hindex
  have hless := List.mem_range.mp hcpu
  rw [(List.mem_replicate.mp hindex).2]
  omega

end Build

end Board
end AislabVP
