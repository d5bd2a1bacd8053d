import AislabVP.Platform.Linearizable

/-!
# Programs with words of their own

A guest program that has a part of the window for itself runs as if it had the platform for
itself, whatever the other vCPUs do elsewhere and however the calls interleave
(`ownRegion_seesAlone`).  All calls, those of the others too, are accesses of QEMU's core at word
offsets: one inside of a word is carried out at its beginning, which may be a cell of the
region.

The program of the repository that tests the window, `mmio_test.c`, stores 64 words and reads
them again.  It prints the words that it has stored on every schedule (`mmioTest_prints`).
-/

namespace AislabVP
namespace Platform

open Foundation Vpipc Qemu SystemC

/-- The call accesses only cells of the region. -/
def MmioCall.InRegion (region : Nat → Prop) (call : MmioCall) : Prop :=
  RangeIn region call.shape.offset.toNat call.shape.size.toNat

/-- The call writes no cell of the region. -/
def MmioCall.Spares (region : Nat → Prop) (call : MmioCall) : Prop :=
  call.shape.isWrite = true → call.InRegion fun cell => ¬region cell

section Region

variable {region : Nat → Prop}

/-- The own calls, on stores that agree on the region. -/
theorem windowCall_agree (flat alone : ByteStore) (call : MmioCall) (next : ByteStore)
    (output : Option (BitVec 64)) (hagree : AgreeOn region flat alone)
    (hown : call.InRegion region) (hrun : windowCall flat call = some (next, output)) :
    ∃ after, windowCall alone call = some (after, output) ∧ AgreeOn region next after := by
  cases call with
  | read offset size =>
      have hbytes : readBytes flat offset.toNat size.toNat =
          readBytes alone offset.toNat size.toNat := hagree.readBytes hown
      obtain ⟨rfl, rfl⟩ := Prod.mk.inj (Option.some.inj hrun)
      refine ⟨alone, ?_, hagree⟩
      rw [windowCall, hbytes]
  | write offset value size =>
      obtain ⟨rfl, rfl⟩ := Prod.mk.inj (Option.some.inj hrun)
      exact ⟨_, rfl, hagree.writeBytes _⟩

/-- The calls of others. -/
theorem windowCall_spares (flat alone : ByteStore) (call : MmioCall) (next : ByteStore)
    (output : Option (BitVec 64)) (hagree : AgreeOn region flat alone)
    (hspares : call.Spares region) (hrun : windowCall flat call = some (next, output)) :
    AgreeOn region next alone := by
  cases call with
  | read offset size =>
      obtain ⟨rfl, -⟩ := Prod.mk.inj (Option.some.inj hrun)
      exact hagree
  | write offset value size =>
      obtain ⟨rfl, -⟩ := Prod.mk.inj (Option.some.inj hrun)
      apply hagree.writeBytes_left
      rw [length_leBytes]
      exact hspares rfl

end Region

section Alone

variable {ι Guest : Type*} [DecidableEq ι]

/-- What a vCPU has to keep to itself: it stays in the region, and no other one writes there. -/
structure KeepsTo (region : Nat → Prop) (i : ι)
    (history : List (ObjectEvent (Requester ι) MmioCall (Option (BitVec 64)))) : Prop where
  own : ∀ call ∈ invocations (.vcpu i) history, call.InRegion region
  others : ∀ j, j ≠ i → ∀ call ∈ invocations (.vcpu j) history, call.Spares region

variable (wiring : Wiring Guest)

/-- The calls and returns of the vCPUs in a run. -/
abbrev vcpuHistory (start : PlatformState ι Guest) (actions : List (Action ι)) :
    List (ObjectEvent (Requester ι) MmioCall (Option (BitVec 64))) :=
  leftHistory (callHistory wiring start actions)

/-- The initiators of SystemC make no such calls, so all other parties are vCPUs. -/
theorem KeepsTo.foreign {region : Nat → Prop} {i : ι} {start : PlatformState ι Guest}
    {actions : List (Action ι)} (hkeeps : KeepsTo region i (vcpuHistory wiring start actions))
    (party : Requester ι) (hother : party ≠ .vcpu i) (call : MmioCall)
    (hmem : call ∈ invocations party (vcpuHistory wiring start actions)) : call.Spares region := by
  obtain ⟨j, rfl, -⟩ := vcpuCall_of_mem_invocations wiring hmem
  exact hkeeps.others j (fun hsame => hother (congrArg Requester.vcpu hsame)) call hmem

/-- In the build without DMA, where all calls are accesses at word offsets, a vCPU that keeps to a
region of its own sees its calls answered as if it were alone, and leaves the region as it would
then. -/
theorem ownRegion_seesAlone (region : Nat → Prop) (i : ι) (thread : TcpThread Guest)
    (cpu : QemuCpu) (actions : List (Action ι)) (final : PlatformState ι Guest)
    (hguard : GuardedRun (step wiring) NoDma (PlatformState.initial thread cpu) actions)
    (hrun : runFrom (step wiring) (PlatformState.initial thread cpu) actions = some final)
    (hword : InvokesOnly WordCall
      (vcpuHistory wiring (PlatformState.initial thread cpu) actions))
    (hkeeps : KeepsTo region i (vcpuHistory wiring (PlatformState.initial thread cpu) actions)) :
    ∃ log after,
      SeenAlone windowCall (window mmioAddr.toNat cpu.memory.mem)
        (invocations (.vcpu i) (vcpuHistory wiring (PlatformState.initial thread cpu) actions))
        (responses (.vcpu i) (vcpuHistory wiring (PlatformState.initial thread cpu) actions))
        log after ∧
      AgreeOn region (window mmioAddr.toNat final.cpu.memory.mem) after := by
  obtain ⟨status, hhistory⟩ := atomic_window_of_noDma wiring hguard hrun hword
  exact hhistory.linearizable.alone windowCall_agree windowCall_spares hkeeps.own
    (hkeeps.foreign wiring) fun _ _ => rfl

end Alone

/-! ## The test program -/

/-- The word that the program stores at an index. -/
def testWord (index : Nat) : BitVec 64 := BitVec.ofNat 64 (0x12340000 + index)

/-- `mapped_dev_base[i] = 0x12340000 + i`. -/
def testWrite (index : Nat) : MmioCall := .write (BitVec.ofNat 64 (4 * index)) (testWord index) 4

/-- The access of `printf("Read value: 0x%x\n", mapped_dev_base[i])`. -/
def testRead (index : Nat) : MmioCall := .read (BitVec.ofNat 64 (4 * index)) 4

/-- The accesses of the two loops of `main`, which has 64 for `count`. -/
def mmioTestCalls (count : Nat) : List MmioCall :=
  (List.range count).map testWrite ++ (List.range count).map testRead

/-- What the program prints. -/
def mmioTestWords (count : Nat) : List (BitVec 64) := (List.range count).map testWord

/-- The accesses with the answers that the program expects. -/
def mmioTestLog (count : Nat) : List (MmioCall × Option (BitVec 64)) :=
  (List.range count).map (fun index => (testWrite index, none)) ++
    (List.range count).map fun index => (testRead index, some (testWord index))

/-- The window after the first loop. -/
def afterWrites (flat : ByteStore) (count : Nat) : ByteStore :=
  writeRow 4 (fun index => leBytes 4 (testWord index).toNat) flat count

section TestProgram

@[simp] theorem mmioTestLog_inputs (count : Nat) :
    (mmioTestLog count).map Prod.fst = mmioTestCalls count := by
  simp [mmioTestLog, mmioTestCalls, Function.comp_def]

@[simp] theorem mmioTestLog_words (count : Nat) :
    ((mmioTestLog count).map Prod.snd).filterMap id = mmioTestWords count := by
  simp [mmioTestLog, mmioTestWords, List.filterMap_map]

@[simp] theorem length_mmioTestLog (count : Nat) : (mmioTestLog count).length = 2 * count := by
  simp [mmioTestLog, Nat.two_mul]

theorem testOffset_toNat {index : Nat} (hfits : 4 * index < mmioSize) :
    (BitVec.ofNat 64 (4 * index)).toNat = 4 * index := by
  have hsize : mmioSize = 0x6000000 := rfl
  rw [BitVec.toNat_ofNat]
  omega

theorem testWord_toNat {index : Nat} (hfits : 4 * index < mmioSize) :
    (testWord index).toNat = 0x12340000 + index := by
  have hsize : mmioSize = 0x6000000 := rfl
  rw [testWord, BitVec.toNat_ofNat]
  omega

/-- The accesses of one index. -/
theorem testCalls_shape {call : MmioCall} {count index : Nat} (hindex : index < count)
    (hcall : call = testWrite index ∨ call = testRead index) (hfits : 4 * count ≤ mmioSize) :
    call.shape.offset.toNat = 4 * index ∧ call.shape.size.toNat = 4 := by
  have hoffset := testOffset_toNat (show 4 * index < mmioSize by omega)
  rcases hcall with rfl | rfl
  · exact ⟨hoffset, rfl⟩
  · exact ⟨hoffset, rfl⟩

theorem exists_index_of_mem_mmioTestCalls {call : MmioCall} {count : Nat}
    (hmem : call ∈ mmioTestCalls count) :
    ∃ index, index < count ∧ (call = testWrite index ∨ call = testRead index) := by
  rcases List.mem_append.mp hmem with hwrite | hread
  · obtain ⟨index, hindex, rfl⟩ := List.mem_map.mp hwrite
    exact ⟨index, List.mem_range.mp hindex, .inl rfl⟩
  · obtain ⟨index, hindex, rfl⟩ := List.mem_map.mp hread
    exact ⟨index, List.mem_range.mp hindex, .inr rfl⟩

theorem wordCall_of_mem_mmioTestCalls {call : MmioCall} {count : Nat}
    (hfits : 4 * count ≤ mmioSize) (hmem : call ∈ mmioTestCalls count) : WordCall call := by
  obtain ⟨index, hindex, hcall⟩ := exists_index_of_mem_mmioTestCalls hmem
  obtain ⟨hoffset, hsize⟩ := testCalls_shape hindex hcall hfits
  refine ⟨⟨.inr (.inr hsize), ?_, ?_⟩, ?_⟩
  · rw [hoffset, hsize]
    omega
  · omega
  · omega

theorem inRegion_of_mem_mmioTestCalls {call : MmioCall} {count : Nat}
    (hfits : 4 * count ≤ mmioSize) (hmem : call ∈ mmioTestCalls count) :
    call.InRegion (· < 4 * count) := by
  obtain ⟨index, hindex, hcall⟩ := exists_index_of_mem_mmioTestCalls hmem
  obtain ⟨hoffset, hsize⟩ := testCalls_shape hindex hcall hfits
  intro cell hfrom hbelow
  omega

/-- A loop of stores side by side writes a row. -/
theorem replays_writeRow {width count : Nat} {word : Nat → List Byte} {call : Nat → MmioCall}
    (hcall : ∀ index, index < count → ∀ flat,
      windowCall flat (call index) = some (writeBytes flat (width * index) (word index), none))
    (flat : ByteStore) :
    Replays windowCall flat ((List.range count).map fun index => (call index, none))
      (writeRow width word flat count) := by
  induction count with
  | zero => rfl
  | succ count ih =>
      rw [List.range_succ, List.map_append]
      have hearlier := ih fun index hindex => hcall index (by omega)
      exact hearlier.snoc (hcall count (by omega) _)

/-- Alone, the first loop stores its words. -/
theorem replays_writes (flat : ByteStore) {count : Nat} (hfits : 4 * count ≤ mmioSize) :
    Replays windowCall flat ((List.range count).map fun index => (testWrite index, none))
      (afterWrites flat count) := by
  apply replays_writeRow
  intro index hindex flat
  rw [testWrite, windowCall, testOffset_toNat (by omega)]
  rfl

/-- Alone, the second loop reads what the first one has stored. -/
theorem replays_reads (flat : ByteStore) {count : Nat} (hfits : 4 * count ≤ mmioSize)
    {indices : List Nat} (hindices : ∀ index ∈ indices, index < count) :
    Replays windowCall (afterWrites flat count)
      (indices.map fun index => (testRead index, some (testWord index)))
      (afterWrites flat count) := by
  induction indices with
  | nil => rfl
  | cons index rest ih =>
      obtain ⟨hindex, hrest⟩ := List.forall_mem_cons.mp hindices
      have hless : 4 * index < mmioSize := by omega
      have hword : (testWord index).toNat < 256 ^ 4 := by
        have hsize : mmioSize = 0x6000000 := rfl
        rw [testWord_toNat hless]
        omega
      refine ⟨afterWrites flat count, ?_, ih hrest⟩
      rw [testRead, windowCall, testOffset_toNat hless]
      have hbytes : readBytes (afterWrites flat count) (4 * index) 4 =
          leBytes 4 (testWord index).toNat :=
        readBytes_writeRow (fun _ => length_leBytes _ _) flat hindex
      rw [show (4 : BitVec 32).toNat = 4 from rfl, hbytes, leValue_leBytes,
        Nat.mod_eq_of_lt hword, BitVec.ofNat_toNat, BitVec.setWidth_eq]

theorem replays_mmioTestLog (flat : ByteStore) {count : Nat} (hfits : 4 * count ≤ mmioSize) :
    Replays windowCall flat (mmioTestLog count) (afterWrites flat count) :=
  replays_append.mpr ⟨_, replays_writes flat hfits,
    replays_reads flat hfits fun _ hindex => List.mem_range.mp hindex⟩

end TestProgram

section Prints

variable {ι Guest : Type*} [DecidableEq ι] (wiring : Wiring Guest)

/-- `mmio_test.c` on one vCPU of a build without DMA, while the others keep off its words: the
words that it has read are the first ones of those it has stored, and when all its accesses have
returned it has read them all. -/
theorem mmioTest_prints (count : Nat) (hfits : 4 * count ≤ mmioSize) (i : ι)
    (thread : TcpThread Guest) (cpu : QemuCpu) (actions : List (Action ι))
    (final : PlatformState ι Guest)
    (hguard : GuardedRun (step wiring) NoDma (PlatformState.initial thread cpu) actions)
    (hrun : runFrom (step wiring) (PlatformState.initial thread cpu) actions = some final)
    (hprogram : invocations (.vcpu i)
      (vcpuHistory wiring (PlatformState.initial thread cpu) actions) <+: mmioTestCalls count)
    (hothers : ∀ j, j ≠ i → ∀ call ∈ invocations (.vcpu j)
      (vcpuHistory wiring (PlatformState.initial thread cpu) actions),
        WordCall call ∧ call.Spares (· < 4 * count)) :
    (responses (.vcpu i)
        (vcpuHistory wiring (PlatformState.initial thread cpu) actions)).filterMap id <+:
      mmioTestWords count ∧
    ((responses (.vcpu i)
        (vcpuHistory wiring (PlatformState.initial thread cpu) actions)).length = 2 * count →
      (responses (.vcpu i)
        (vcpuHistory wiring (PlatformState.initial thread cpu) actions)).filterMap id =
        mmioTestWords count) := by
  have hword : InvokesOnly WordCall
      (vcpuHistory wiring (PlatformState.initial thread cpu) actions) := by
    intro party call hmem
    obtain ⟨j, rfl, -⟩ := vcpuCall_of_mem_invocations wiring hmem
    by_cases hsame : j = i
    · subst hsame
      exact wordCall_of_mem_mmioTestCalls hfits (hprogram.subset hmem)
    · exact (hothers j hsame call hmem).1
  have hkeeps : KeepsTo (· < 4 * count) i
      (vcpuHistory wiring (PlatformState.initial thread cpu) actions) := {
    own := fun call hmem => inRegion_of_mem_mmioTestCalls hfits (hprogram.subset hmem)
    others := fun j hother call hmem => (hothers j hother call hmem).2 }
  obtain ⟨status, hhistory⟩ := atomic_window_of_noDma wiring hguard hrun hword
  obtain ⟨log, after, hseen, -⟩ := hhistory.linearizable.alone windowCall_agree
    windowCall_spares hkeeps.own (hkeeps.foreign wiring) fun _ _ => rfl
  -- The log makes the first calls of the program, so it is a part of the expected one.
  obtain ⟨waiting, hinvoked, -⟩ := hseen.invoked
  obtain ⟨unread, hanswered, -⟩ := hseen.answered
  have hinputs : log.map Prod.fst <+: (mmioTestLog count).map Prod.fst := by
    rw [mmioTestLog_inputs]
    exact (List.prefix_append _ waiting).trans (hinvoked ▸ hprogram)
  have hlog : log <+: mmioTestLog count :=
    hseen.replays.prefix_of_inputs (replays_mmioTestLog _ hfits) hinputs
  have houtputs : responses (.vcpu i)
      (vcpuHistory wiring (PlatformState.initial thread cpu) actions) <+:
        (mmioTestLog count).map Prod.snd := by
    refine List.IsPrefix.trans ?_ (hlog.map Prod.snd)
    rw [hanswered]
    exact List.prefix_append _ unread
  constructor
  · rw [← mmioTestLog_words]
    exact houtputs.filterMap id
  · intro hall
    rw [houtputs.eq_of_length (by simpa using hall), mmioTestLog_words]

end Prints

/-! ## Two runs -/

/-- One call of a vCPU, from the callback to its return, with SystemC at once at work. -/
def callSteps (i : Bool) (call : MmioCall) : List (Action Bool) :=
  [ .vcpuCall i call, .vcpuLock i, .vcpuSend i, .scPoll true, .scServe, .vcpuRecv i,
    .vcpuUnlock i ]

/-- The test program with two words on the first vCPU, and the second one reads the second word
before it is stored. -/
def testRun : List (Action Bool) :=
  [ .vcpuCall false (testWrite 0), .vcpuCall true (.read 4 4), .vcpuLock false,
    .vcpuSend false, .scPoll true, .scServe, .vcpuRecv false, .vcpuUnlock false, .tcpLock,
    .tcpPoll false, .vcpuLock true, .vcpuSend true, .vcpuCall false (testWrite 1), .scPoll true,
    .scServe, .vcpuRecv true, .vcpuUnlock true, .tcpLock, .tcpPoll false, .vcpuLock false,
    .vcpuSend false, .scPoll true, .scServe, .vcpuRecv false, .vcpuUnlock false ] ++
  callSteps false (testRead 0) ++ callSteps false (testRead 1)

theorem testRun_noDma : GuardedRun (step demoWiring) NoDma
    (PlatformState.initial idleThread zeroCpu) testRun := by
  apply guardedRun_of_forall_mem
  simp [testRun, callSteps, NoDma]

/-- The calls and returns of the run. -/
theorem testRun_history :
    vcpuHistory demoWiring (PlatformState.initial idleThread zeroCpu) testRun =
      [.invoke (.vcpu false) (testWrite 0), .invoke (.vcpu true) (.read 4 4),
        .respond (.vcpu false) none, .invoke (.vcpu false) (testWrite 1),
        .respond (.vcpu true) (some 0), .respond (.vcpu false) none,
        .invoke (.vcpu false) (testRead 0), .respond (.vcpu false) (some (testWord 0)),
        .invoke (.vcpu false) (testRead 1), .respond (.vcpu false) (some (testWord 1))] := by
  rfl

theorem testRun_own {call : MmioCall}
    (hmem : call ∈ invocations (.vcpu false)
      (vcpuHistory demoWiring (PlatformState.initial idleThread zeroCpu) testRun)) :
    call ∈ mmioTestCalls 2 := by
  rw [testRun_history] at hmem
  exact hmem

/-- The other vCPU makes one call, a read. -/
theorem testRun_others {j : Bool} (hother : j ≠ false) {call : MmioCall}
    (hmem : call ∈ invocations (.vcpu j)
      (vcpuHistory demoWiring (PlatformState.initial idleThread zeroCpu) testRun)) :
    WordCall call ∧ call.Spares (· < 4 * 2) := by
  obtain rfl : j = true := by simpa using hother
  rw [testRun_history] at hmem
  obtain rfl : call = .read 4 4 := List.mem_singleton.mp hmem
  refine ⟨⟨⟨by decide, by decide, by decide⟩, by decide⟩, ?_⟩
  intro hwrite
  cases hwrite

theorem ownRegion_seesAlone_testRun :
    ∃ s, runFrom (step demoWiring) (PlatformState.initial idleThread zeroCpu) testRun = some s ∧
      ∃ log after,
        SeenAlone windowCall (window mmioAddr.toNat zeroCpu.memory.mem)
          (invocations (.vcpu false)
            (vcpuHistory demoWiring (PlatformState.initial idleThread zeroCpu) testRun))
          (responses (.vcpu false)
            (vcpuHistory demoWiring (PlatformState.initial idleThread zeroCpu) testRun))
          log after ∧
        AgreeOn (· < 8) (window mmioAddr.toNat s.cpu.memory.mem) after := by
  have hword : InvokesOnly WordCall
      (vcpuHistory demoWiring (PlatformState.initial idleThread zeroCpu) testRun) := by
    intro party call hmem
    obtain ⟨j, rfl, -⟩ := vcpuCall_of_mem_invocations demoWiring hmem
    by_cases hsame : j = false
    · subst hsame
      exact wordCall_of_mem_mmioTestCalls (by decide) (testRun_own hmem)
    · exact (testRun_others hsame hmem).1
  have hkeeps : KeepsTo (· < 4 * 2) false
      (vcpuHistory demoWiring (PlatformState.initial idleThread zeroCpu) testRun) := {
    own := fun call hmem => inRegion_of_mem_mmioTestCalls (by decide) (testRun_own hmem)
    others := fun j hother call hmem => (testRun_others hother hmem).2 }
  exact ⟨_, rfl, ownRegion_seesAlone demoWiring (· < 4 * 2) false idleThread zeroCpu testRun _
    testRun_noDma rfl hword hkeeps⟩

theorem mmioTest_prints_testRun :
    (responses (.vcpu false)
      (vcpuHistory demoWiring (PlatformState.initial idleThread zeroCpu) testRun)).filterMap id =
        [0x12340000, 0x12340001] := by
  obtain ⟨s, hrun⟩ : ∃ s, runFrom (step demoWiring)
      (PlatformState.initial idleThread zeroCpu) testRun = some s := ⟨_, rfl⟩
  have hprogram : invocations (.vcpu false)
      (vcpuHistory demoWiring (PlatformState.initial idleThread zeroCpu) testRun) <+:
        mmioTestCalls 2 := by
    rw [testRun_history]
    exact List.prefix_refl _
  refine (mmioTest_prints demoWiring 2 (by decide) false idleThread zeroCpu testRun s
    testRun_noDma hrun hprogram fun j hother call hmem => testRun_others hother hmem).2 ?_
  rw [testRun_history]
  rfl

end Platform
end AislabVP
