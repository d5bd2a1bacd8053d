import AislabVP.Board.Layout
import AislabVP.Board.TreeNodes
import Mathlib.Order.Bounds.Basic

/-!
# The pages of the IMSICs

`aislab_create_aia` places an IMSIC for each hart of a socket, with one page for the hart and
one for each of its guests; `create_fdt_one_imsic` tells the guest operating system where
they are, as fields of an address: a group of 16 MiB for each socket, in it a number of bits
for the hart, and below these a number of bits for the guest.  The two functions compute this
from different data.  `PageDescribed` says that they agree on a page.

The widths of the fields come from `aislab_imsic_num_bits`, whose loop in the machine's words
ends with the smallest width that is large enough (`imsicNumBitsLoop_eq`).  With 512 harts
and seven guests the fields fill the group exactly.
-/

namespace AislabVP
namespace Board

open Foundation

/-! ## `aislab_imsic_num_bits` in machine words -/

/-- `BIT`. -/
def bit (nr : BitVec 32) : BitVec 64 := (1 : BitVec 64) <<< nr.toNat

/-- The loop of `aislab_imsic_num_bits`; `none` when it is still running. -/
def imsicNumBitsLoop (count : BitVec 32) : Nat → BitVec 32 → Option (BitVec 32)
  | 0, _ => none
  | fuel + 1, ret =>
      if bit ret < count.setWidth 64 then imsicNumBitsLoop count fuel (ret + 1) else some ret

theorem toNat_bit {nr : BitVec 32} (hnr : nr.toNat ≤ 32) : (bit nr).toNat = 2 ^ nr.toNat := by
  have hone : (1 : BitVec 64).toNat = 1 := rfl
  have hpower : 2 ^ nr.toNat ≤ 2 ^ 32 := Nat.pow_le_pow_right (by omega) hnr
  rw [bit, BitVec.toNat_shiftLeft, hone, Nat.shiftLeft_eq, Nat.one_mul]
  exact Nat.mod_eq_of_lt (by omega)

/-- From any width that is not too large the loop ends, at the first that is large enough. -/
theorem imsicNumBitsLoop_spec (count : BitVec 32) :
    ∀ (fuel : Nat) (ret : BitVec 32), ret.toNat + fuel = 32 →
      (ret.toNat = 0 ∨ 2 ^ (ret.toNat - 1) < count.toNat) →
      ∃ result, imsicNumBitsLoop count (fuel + 1) ret = some result ∧ result.toNat ≤ 32 ∧
        count.toNat ≤ 2 ^ result.toNat ∧
        (result.toNat = 0 ∨ 2 ^ (result.toNat - 1) < count.toNat) := by
  have hcount := count.isLt
  have hwide : (count.setWidth 64).toNat = count.toNat := by
    rw [BitVec.toNat_setWidth]
    omega
  intro fuel
  induction fuel with
  | zero =>
      intro ret hret hbefore
      have hbit := toNat_bit (Nat.le_of_eq hret)
      have hlarge : ¬bit ret < count.setWidth 64 := by
        rw [BitVec.lt_def, hbit, hwide, show ret.toNat = 32 from hret]
        omega
      refine ⟨ret, ?_, Nat.le_of_eq hret, ?_, hbefore⟩
      · rw [imsicNumBitsLoop, if_neg hlarge]
      · rw [show ret.toNat = 32 from hret]
        omega
  | succ fuel ih =>
      intro ret hret hbefore
      have hbit : (bit ret).toNat = 2 ^ ret.toNat := toNat_bit (by omega)
      rw [imsicNumBitsLoop]
      by_cases hless : bit ret < count.setWidth 64
      · rw [if_pos hless]
        rw [BitVec.lt_def, hbit, hwide] at hless
        have hone : (1 : BitVec 32).toNat = 1 := rfl
        have hnext : (ret + 1).toNat = ret.toNat + 1 := by
          rw [BitVec.toNat_add, hone]
          exact Nat.mod_eq_of_lt (by omega)
        refine ih (ret + 1) (by omega) (Or.inr ?_)
        rw [hnext]
        exact hless
      · rw [if_neg hless]
        rw [BitVec.lt_def, hbit, hwide, Nat.not_lt] at hless
        exact ⟨ret, rfl, by omega, hless, hbefore⟩

/-- A width that is large enough, while the one below it is not, is the least one. -/
theorem isLeast_width {count width : Nat} (henough : count ≤ 2 ^ width)
    (hbefore : width = 0 ∨ 2 ^ (width - 1) < count) : IsLeast {r | count ≤ 2 ^ r} width :=
  ⟨henough, fun _ hother => width_le hbefore hother⟩

/-- For every count of 32 bits the loop ends, with the least width that is large enough. -/
theorem imsicNumBitsLoop_eq (count : BitVec 32) :
    imsicNumBitsLoop count 33 0 = some (BitVec.ofNat 32 (aislabImsicNumBits count.toNat)) ∧
      aislabImsicNumBits count.toNat ≤ 32 ∧
      IsLeast {r | count.toNat ≤ 2 ^ r} (aislabImsicNumBits count.toNat) := by
  obtain ⟨henough, hbefore⟩ := aislabImsicNumBits_spec count.toNat
  have hleast := isLeast_width henough hbefore
  obtain ⟨result, hresult, hsmall, hresultEnough, hresultBefore⟩ :=
    imsicNumBitsLoop_spec count 32 0 rfl (Or.inl rfl)
  have hsame : result.toNat = aislabImsicNumBits count.toNat :=
    (isLeast_width hresultEnough hresultBefore).unique hleast
  refine ⟨?_, hsame ▸ hsmall, hleast⟩
  rw [hresult, ← hsame, BitVec.ofNat_toNat, BitVec.setWidth_eq]

/-! ## The pages of the hardware -/

/-- The guest bits that `aislab_create_aia` uses at a level. -/
def imsicGuestBits (s : AislabState) : Level → Nat
  | .m => 0
  | .s => aislabImsicNumBits (s.aiaGuests + 1)

/-- The pages of a hart's IMSIC at a level. -/
def imsicPages (s : AislabState) : Level → Nat
  | .m => 1
  | .s => 1 + s.aiaGuests

/-- The IMSICs of a level that `aislab_create_aia` creates for a socket. -/
def socketImsics (s : AislabState) (level : Level) (socket : Nat) : List AddressRange :=
  createImsics ((imsicEntry level).base + socket * aislabImsicGroupMaxSize)
    (imsicHartSize (imsicGuestBits s level)) (imsicPages s level) (numHarts s socket)

/-- A page of an IMSIC: the hart's own, or that of one of its guests. -/
def CreatedPage (s : AislabState) (level : Level) (socket hart guest addr : Nat) : Prop :=
  socket < s.socketCount ∧ guest < imsicPages s level ∧
    ∃ imsic, (socketImsics s level socket)[hart]? = some imsic ∧
      addr = imsic.base + guest * imsicMmioPageSize

/-- The device tree describes a page: it is inside the `reg` entry of its socket, its address
is composed of the fields, and its indices fit the fields, which are below the group's. -/
structure PageDescribed (s : AislabState) (level : Level) (props : ImsicProps)
    (socket hart guest addr : Nat) : Prop where
  reg : ∃ base size, (props.reg.drop (4 * socket)).take 4 = [0, base, 0, size] ∧
    base.toNat ≤ addr ∧ addr + imsicMmioPageSize ≤ base.toNat + size.toNat
  address : addr = (imsicEntry level).base + (socket <<< imsicMmioGroupMinShift) +
    (hart <<< (12 + props.guestIndexBits.getD 0)) + (guest <<< 12)
  guestField : guest < 2 ^ props.guestIndexBits.getD 0
  socketFields : s.socketCount > 1 → ∃ hartBits groupBits,
    props.hartIndexBits = some hartBits ∧ props.groupIndexBits = some groupBits ∧
    props.groupIndexShift = some imsicMmioGroupMinShift ∧
    hart < 2 ^ hartBits ∧ socket < 2 ^ groupBits ∧
    12 + props.guestIndexBits.getD 0 + hartBits ≤ imsicMmioGroupMinShift

section Pages

variable {s : AislabState} {level : Level} {socket hart guest addr : Nat}

/-- The two levels of `aislab_create_aia`. -/
theorem createImsicLevels_eq (s : AislabState) (socket : Nat) :
    createImsicLevels s.aiaGuests socket (numHarts s socket) =
      socketImsics s .m socket ++ socketImsics s .s socket := rfl

/-- The interrupt controller of a socket with MSIs: its IMSICs and the two APLICs. -/
theorem createIrqchip_eq (himsic : s.aiaType = .aplicImsic) (socket : Nat) :
    createIrqchip s socket = socketImsics s .m socket ++ socketImsics s .s socket ++
      [riscvAplicCreate (aislabMemmap .aplicM) socket,
        riscvAplicCreate (aislabMemmap .aplicS) socket] := by
  rw [← createImsicLevels_eq, createIrqchip, himsic, if_neg AIAType.noConfusion, aislabCreateAia,
    if_pos rfl, numHarts]

theorem numHarts_le (hsocket : socket < s.socketCount) : numHarts s socket ≤ 512 := by
  have hharts := hartsOf_le s socket
  rw [hartsOf, if_pos hsocket] at hharts
  exact hharts

/-- A hart's pages fit its stride, and 512 strides fit a group. -/
theorem imsicPages_fit (s : AislabState) (level : Level) :
    imsicPages s level * imsicMmioPageSize ≤ imsicHartSize (imsicGuestBits s level) ∧
      512 * imsicHartSize (imsicGuestBits s level) ≤ aislabImsicGroupMaxSize := by
  cases level with
  | m =>
      show 1 * imsicMmioPageSize ≤ imsicHartSize 0 ∧
        512 * imsicHartSize 0 ≤ aislabImsicGroupMaxSize
      decide
  | s => exact imsicHartSize_spec s

theorem createdPage_iff : CreatedPage s level socket hart guest addr ↔
    socket < s.socketCount ∧ guest < imsicPages s level ∧ hart < numHarts s socket ∧
      addr = (imsicEntry level).base + socket * aislabImsicGroupMaxSize +
        hart * imsicHartSize (imsicGuestBits s level) + guest * imsicMmioPageSize := by
  refine and_congr_right fun _ => and_congr_right fun _ => ?_
  unfold socketImsics createImsics
  rw [List.getElem?_map]
  by_cases hhart : hart < numHarts s socket
  · rw [List.getElem?_range hhart]
    simp [hhart, riscvImsicCreate]
  · simp [hhart]

/-- Every hart of the board has all its pages. -/
theorem exists_createdPage_iff : (∃ addr, CreatedPage s level socket hart guest addr) ↔
    socket < s.socketCount ∧ guest < imsicPages s level ∧ hart < numHarts s socket := by
  simp only [createdPage_iff, exists_and_left, exists_eq, and_true]

/-- The page of a guest is inside the stride of its hart. -/
theorem page_inside_hart (hguest : guest < imsicPages s level) :
    guest * imsicMmioPageSize + imsicMmioPageSize ≤ imsicHartSize (imsicGuestBits s level) := by
  have hnext : (guest + 1) * imsicMmioPageSize ≤ imsicPages s level * imsicMmioPageSize :=
    Nat.mul_le_mul_right _ hguest
  rw [Nat.succ_mul] at hnext
  exact Nat.le_trans hnext (imsicPages_fit s level).1

/-- The page of a hart is inside the pages of the harts of its socket. -/
theorem page_inside_socket (hguest : guest < imsicPages s level)
    (hhart : hart < numHarts s socket) :
    hart * imsicHartSize (imsicGuestBits s level) + guest * imsicMmioPageSize +
      imsicMmioPageSize ≤ imsicHartSize (imsicGuestBits s level) * numHarts s socket := by
  have hpage := page_inside_hart hguest
  have hnext : (hart + 1) * imsicHartSize (imsicGuestBits s level) ≤
      numHarts s socket * imsicHartSize (imsicGuestBits s level) := Nat.mul_le_mul_right _ hhart
  rw [Nat.succ_mul, Nat.mul_comm (numHarts s socket)] at hnext
  omega

/-- The pages of a socket are inside its group. -/
theorem socket_inside_group (hsocket : socket < s.socketCount) (level : Level) :
    imsicHartSize (imsicGuestBits s level) * numHarts s socket ≤ aislabImsicGroupMaxSize := by
  rw [Nat.mul_comm]
  exact Nat.le_trans (Nat.mul_le_mul_right _ (numHarts_le hsocket)) (imsicPages_fit s level).2

/-- The pages of a level are inside its entry of the map. -/
theorem page_inside_entry (hmax : s.socketCount ≤ aislabSocketsMax)
    (hpage : CreatedPage s level socket hart guest addr) :
    (imsicEntry level).base ≤ addr ∧
      addr + imsicMmioPageSize ≤ (imsicEntry level).base + 4 * aislabImsicGroupMaxSize := by
  obtain ⟨hsocket, hguest, hhart, rfl⟩ := createdPage_iff.mp hpage
  have hinside := page_inside_socket hguest hhart
  have hgroup := socket_inside_group hsocket level
  have hnext : (socket + 1) * aislabImsicGroupMaxSize ≤ 4 * aislabImsicGroupMaxSize :=
    Nat.mul_le_mul_right _ (Nat.lt_of_lt_of_le hsocket hmax)
  rw [Nat.succ_mul] at hnext
  omega

/-- Pages that overlap are the same page. -/
theorem createdPage_unique {level' : Level} {socket' hart' guest' addr' : Nat}
    (hmax : s.socketCount ≤ aislabSocketsMax) (hpage : CreatedPage s level socket hart guest addr)
    (hother : CreatedPage s level' socket' hart' guest' addr')
    (hbelow : addr < addr' + imsicMmioPageSize) (habove : addr' < addr + imsicMmioPageSize) :
    level = level' ∧ socket = socket' ∧ hart = hart' ∧ guest = guest' := by
  have hentry := page_inside_entry hmax hpage
  have hotherEntry := page_inside_entry hmax hother
  have hlevels : (imsicEntry .m).base + 4 * aislabImsicGroupMaxSize = (imsicEntry .s).base := by
    decide
  have hlevel : level = level' := by
    cases level <;> cases level' <;> first | rfl | omega
  subst hlevel
  obtain ⟨hsocket, hguest, hhart, rfl⟩ := createdPage_iff.mp hpage
  obtain ⟨hsocket', hguest', hhart', rfl⟩ := createdPage_iff.mp hother
  have hinside := page_inside_socket hguest hhart
  have hinside' := page_inside_socket hguest' hhart'
  have hgroup := socket_inside_group hsocket level
  have hgroup' := socket_inside_group hsocket' level
  -- From the group to the hart and to the guest, each time at a smaller stride.
  obtain rfl : socket = socket' := index_eq_of_overlap (Nat.le_trans hinside hgroup)
    (Nat.le_trans hinside' hgroup') (by omega) (by omega)
  obtain rfl : hart = hart' := index_eq_of_overlap (page_inside_hart hguest)
    (page_inside_hart hguest') (by omega) (by omega)
  have hpageSize : imsicMmioPageSize = 0x1000 := rfl
  rw [hpageSize] at hbelow habove
  exact ⟨rfl, rfl, rfl, by omega⟩

/-! ## The properties in the device tree -/

/-- In a table with four cells for each index, the cells of an index. -/
theorem table_cells {Cell : Type*} {cells : Nat → List Cell}
    (hcells : ∀ index, (cells index).length = 4) {index count : Nat} (hindex : index < count) :
    ((((List.range count).flatMap cells).drop (4 * index)).take 4) = cells index := by
  have hlength : ∀ n, ((List.range n).flatMap cells).length = 4 * n := by
    intro n
    induction n with
    | zero => rfl
    | succ n ih =>
        rw [List.range_succ, List.flatMap_append, List.flatMap_singleton, List.length_append, ih,
          hcells, Nat.mul_succ]
  obtain ⟨more, rfl⟩ := Nat.exists_eq_add_of_le hindex
  rw [List.range_add, List.range_succ, List.flatMap_append, List.flatMap_append,
    List.flatMap_singleton, List.append_assoc, List.drop_left' (hlength index),
    List.take_left' (hcells index)]

/-- The maximum is reached by no socket with more harts, and is a number of harts. -/
theorem imsicMaxHartPerSocket_spec (s : AislabState) :
    (∀ socket < s.socketCount, numHarts s socket ≤ imsicMaxHartPerSocket s) ∧
      imsicMaxHartPerSocket s ≤ 512 := by
  have hloop : ∀ count ≤ s.socketCount,
      (∀ socket < count, numHarts s socket ≤ (List.range count).foldl
        (fun most socket => if most < numHarts s socket then numHarts s socket else most) 0) ∧
      (List.range count).foldl
        (fun most socket => if most < numHarts s socket then numHarts s socket else most) 0 ≤
          512 := by
    intro count
    induction count with
    | zero => exact fun _ => ⟨nofun, Nat.zero_le _⟩
    | succ last ih =>
        intro hcount
        obtain ⟨hall, hbound⟩ := ih (Nat.le_of_succ_le hcount)
        have hlast := numHarts_le hcount
        rw [List.range_succ, List.foldl_append, List.foldl_cons, List.foldl_nil]
        refine ⟨fun socket hsocket => ?_, by split <;> omega⟩
        rcases Nat.lt_succ_iff_lt_or_eq.mp hsocket with hless | rfl
        · have hearlier := hall socket hless
          split <;> omega
        · split <;> omega
  exact hloop s.socketCount (Nat.le_refl _)

theorem imsicGuestBits_spec (s : AislabState) (level : Level) :
    imsicPages s level ≤ 2 ^ imsicGuestBits s level ∧ imsicGuestBits s level ≤ 3 := by
  cases level with
  | m => exact ⟨Nat.le_refl 1, Nat.zero_le 3⟩
  | s =>
      have hguests : s.aiaGuests ≤ 7 := s.guests_le
      have henough := (aislabImsicNumBits_spec (s.aiaGuests + 1)).1
      have hbits : aislabImsicNumBits (s.aiaGuests + 1) ≤ 3 :=
        aislabImsicNumBits_le (show s.aiaGuests + 1 ≤ 2 ^ 3 by omega)
      exact ⟨show 1 + s.aiaGuests ≤ 2 ^ aislabImsicNumBits (s.aiaGuests + 1) by omega, hbits⟩

/-- The published guest bits, or none if they are zero. -/
theorem guestIndexBits_getD (s : AislabState) (baseAddr guestBits : Nat) :
    (imsicProps s baseAddr guestBits).guestIndexBits.getD 0 = guestBits := by
  unfold imsicProps
  by_cases hbits : guestBits = 0
  · simp [hbits]
  · simp [hbits]

/-- The device tree describes every page that is created. -/
theorem createdPage_described (hmax : s.socketCount ≤ aislabSocketsMax)
    (hpage : CreatedPage s level socket hart guest addr) :
    PageDescribed s level (imsicProps s (imsicEntry level).base (imsicGuestBits s level))
      socket hart guest addr := by
  have hentry := page_inside_entry hmax hpage
  obtain ⟨hsocket, hguest, hhart, rfl⟩ := createdPage_iff.mp hpage
  have hinside := page_inside_socket hguest hhart
  have hgroup := socket_inside_group hsocket level
  obtain ⟨hpages, hbits⟩ := imsicGuestBits_spec s level
  constructor
  · have hbase : (imsicEntry level).base + 4 * aislabImsicGroupMaxSize < 2 ^ 32 := by
      cases level <;> decide
    have hgroupSize : aislabImsicGroupMaxSize < 2 ^ 32 := by decide
    refine ⟨BitVec.ofNat 32 ((imsicEntry level).base + socket * aislabImsicGroupMaxSize),
      BitVec.ofNat 32 (imsicHartSize (imsicGuestBits s level) * numHarts s socket),
      table_cells (fun _ => rfl) hsocket, ?_, ?_⟩
    · rw [BitVec.toNat_ofNat, Nat.mod_eq_of_lt (by omega)]
      omega
    · rw [BitVec.toNat_ofNat, BitVec.toNat_ofNat, Nat.mod_eq_of_lt (by omega),
        Nat.mod_eq_of_lt (by omega)]
      omega
  · -- The strides are powers of two.
    have hgroupSize : aislabImsicGroupMaxSize = 2 ^ imsicMmioGroupMinShift := rfl
    have hpageSize : imsicMmioPageSize = 2 ^ 12 := rfl
    have hhartSize : imsicHartSize (imsicGuestBits s level) =
        2 ^ (12 + imsicGuestBits s level) := by
      rw [imsicHartSize, hpageSize, Nat.pow_add, Nat.mul_comm]
    rw [guestIndexBits_getD, Nat.shiftLeft_eq, Nat.shiftLeft_eq, Nat.shiftLeft_eq, hgroupSize,
      hhartSize, hpageSize]
  · rw [guestIndexBits_getD]
    exact Nat.lt_of_lt_of_le hguest hpages
  · intro hseveral
    obtain ⟨hall, hbound⟩ := imsicMaxHartPerSocket_spec s
    have hharts := (aislabImsicNumBits_spec (imsicMaxHartPerSocket s)).1
    have hsockets := (aislabImsicNumBits_spec s.socketCount).1
    have hmost := hall socket hsocket
    have hwidth : aislabImsicNumBits (imsicMaxHartPerSocket s) ≤ 9 :=
      aislabImsicNumBits_le (show imsicMaxHartPerSocket s ≤ 2 ^ 9 by omega)
    refine ⟨aislabImsicNumBits (imsicMaxHartPerSocket s), aislabImsicNumBits s.socketCount,
      if_pos hseveral, if_pos hseveral, if_pos hseveral, by omega, by omega, ?_⟩
    rw [guestIndexBits_getD]
    show _ ≤ 24
    omega

/-! ## The result -/

/-- The tree has the IMSIC node of a level, with the properties of `create_fdt_one_imsic`. -/
theorem imsicNode_mem (himsic : s.aiaType = .aplicImsic) (accel : Accelerator) (cpus : Nat)
    (level : Level) :
    ∃ node ∈ (finalizeFdt s accel cpus).nodes, node.name = .imsics level ∧
      node.imsic = some (imsicProps s (imsicEntry level).base (imsicGuestBits s level)) := by
  let before := createFdtSocketsCpus s accel cpus s.socketCount initialFdt
  let msi := createFdtImsic s cpus before
  have hmem : ∃ node ∈ msi.1.nodes, node.name = .imsics level ∧
      node.imsic = some (imsicProps s (imsicEntry level).base (imsicGuestBits s level)) := by
    simp only [msi, createFdtImsic_eq]
    cases level with
    | m => exact ⟨_, List.mem_append_right _ List.mem_cons_self, rfl, rfl⟩
    | s => exact ⟨_, List.mem_append_right _ (List.mem_cons_of_mem _ (List.mem_singleton_self _)),
        rfl, rfl⟩
  have hsockets : (fdtSockets s accel cpus).st =
      createFdtSocketsXplic s msi.2.1 msi.2.2 cpus s.socketCount msi.1 := by
    unfold fdtSockets createFdtSockets
    rw [if_pos himsic]
  obtain ⟨node, hnode, hproperties⟩ := hmem
  obtain ⟨more, hmore, -⟩ :=
    createFdtSocketsXplic_adds s msi.2.1 msi.2.2 cpus s.socketCount msi.1
  refine ⟨node, ?_, hproperties⟩
  rw [(finalizeFdt_fields s accel cpus).1, hsockets, hmore]
  exact List.mem_append_left _ (List.mem_append_left _ hnode)

end Pages

/-- The IMSIC addresses in the device tree are those of the hardware. -/
structure ImsicPagesRight (s : AislabState) (accel : Accelerator) (cpus : Nat) : Prop where
  numBits : ∀ count : BitVec 32,
    imsicNumBitsLoop count 33 0 = some (BitVec.ofNat 32 (aislabImsicNumBits count.toNat)) ∧
      IsLeast {r | count.toNat ≤ 2 ^ r} (aislabImsicNumBits count.toNat)
  created : ∀ socket, createIrqchip s socket =
    socketImsics s .m socket ++ socketImsics s .s socket ++
      [riscvAplicCreate (aislabMemmap .aplicM) socket,
        riscvAplicCreate (aislabMemmap .aplicS) socket]
  exist : ∀ level socket hart guest, (∃ addr, CreatedPage s level socket hart guest addr) ↔
    socket < s.socketCount ∧ guest < imsicPages s level ∧ hart < numHarts s socket
  distinct : ∀ level socket hart guest addr level' socket' hart' guest' addr',
    CreatedPage s level socket hart guest addr →
    CreatedPage s level' socket' hart' guest' addr' →
    addr < addr' + imsicMmioPageSize → addr' < addr + imsicMmioPageSize →
      level = level' ∧ socket = socket' ∧ hart = hart' ∧ guest = guest'
  described : ∀ level, ∃ node ∈ (finalizeFdt s accel cpus).nodes,
    node.name = .imsics level ∧ ∃ props, node.imsic = some props ∧
      ∀ socket hart guest addr, CreatedPage s level socket hart guest addr →
        PageDescribed s level props socket hart guest addr

/-- On a board with MSIs and at most four sockets the two agree. -/
theorem imsicPagesRight {s : AislabState} (himsic : s.aiaType = .aplicImsic)
    (hmax : s.socketCount ≤ aislabSocketsMax) (accel : Accelerator) (cpus : Nat) :
    ImsicPagesRight s accel cpus where
  numBits := fun count => ⟨(imsicNumBitsLoop_eq count).1, (imsicNumBitsLoop_eq count).2.2⟩
  created := createIrqchip_eq himsic
  exist := fun _ _ _ _ => exists_createdPage_iff
  distinct := fun _ _ _ _ _ _ _ _ _ _ hpage hother =>
    createdPage_unique hmax hpage hother
  described := by
    intro level
    obtain ⟨node, hnode, hname, hprops⟩ := imsicNode_mem himsic accel cpus level
    exact ⟨node, hnode, hname, _, hprops, fun _ _ _ _ => createdPage_described hmax⟩

/-- Two sockets with 511 harts and one, and seven guests each. -/
def fullImsicBoard : AislabState where
  haveAclint := false
  aiaType := .aplicImsic
  aiaGuests := 7
  is32bit := false
  ramSize := 0x80000000
  socketCount := 2
  checkHartids := fun _ => true
  firstHartid := fun socket => if socket = 0 then 0 else 511
  hartCount := fun socket => if socket = 0 then 511 else 1
  guests_le := by decide
  harts_le := by decide

theorem imsicPagesRight_fullImsicBoard : ImsicPagesRight fullImsicBoard .tcg 512 :=
  imsicPagesRight rfl (by decide) .tcg 512

end Board
end AislabVP
