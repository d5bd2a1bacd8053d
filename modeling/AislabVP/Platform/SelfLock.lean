import AislabVP.Platform.Protocol
import AislabVP.Vpipc.CallerArray

/-!
# The mutex of the device and the thread that serves

`tcp_thread_func` holds `dev->mutex` while it serves a request.  QEMU routes a copy whose
range meets the window of the device to `mmio_bus_read` or `mmio_bus_write`, in the
thread that copies, and past `client_is_connect` these wait for the same mutex, which is
not recursive.

The transition system below keeps the mutex, the points at which the vCPU threads and the
serving thread are, and the module record; the requests of a batch may hold any words.
`SelfLocked` says that a thread waits for the mutex while it owns it.  No such state
occurs in a run if and only if the run never serves a read or write that names a byte of
the window to a connected device (`never_selfLocked_iff`), and such a state is never left
again (`selfLocked_step`).
-/

namespace AislabVP
namespace Platform

open Foundation Vpipc Qemu

/-! ## Ranges that meet the window -/

/-- Some byte of the range is in the window.  The range may run over the end of the
address space. -/
def namesWindow (addr length : BitVec 64) : Bool :=
  meetsWindow addr length ||
    decide (2 ^ 64 + mmioAddr.toNat < addr.toNat + length.toNat)

theorem namesWindow_iff (addr length : BitVec 64) :
    namesWindow addr length = true ↔
      ∃ index < length.toNat, InWindow ((addr.toNat + index) % 2 ^ 64) := by
  have haddr := addr.isLt
  have hlen := length.isLt
  have hbase : mmioAddr.toNat = 0x6000000 := rfl
  have hsize : mmioSize = 0x6000000 := rfl
  simp only [namesWindow, meetsWindow, Bool.or_eq_true, decide_eq_true_eq, InWindow, hbase, hsize]
  constructor
  · rintro (⟨hpositive, hbelow, habove⟩ | hwraps)
    · -- The first byte of the range that is not below the window.
      refine ⟨max addr.toNat 0x6000000 - addr.toNat, by omega, by omega, by omega⟩
    · -- The range comes round to the first byte of the window.
      exact ⟨2 ^ 64 + 0x6000000 - addr.toNat, by omega, by omega, by omega⟩
  · rintro ⟨index, hindex, hlow, hhigh⟩
    omega

/-- A copy comes back when it stays inside `value` and names no byte of the window. -/
theorem copyReturns_iff (addr length : BitVec 64) :
    copyReturns addr length = true ↔
      length.toNat ≤ sizeofValue ∧ namesWindow addr length = false := by
  have haddr := addr.isLt
  have hbase : mmioAddr.toNat = 0x6000000 := rfl
  have height : sizeofValue = 8 := rfl
  simp only [copyReturns, namesWindow, Bool.and_eq_true, decide_eq_true_eq, Bool.not_eq_true',
    Bool.or_eq_false_iff, decide_eq_false_iff_not, hbase, height]
  constructor
  · rintro ⟨hshort, hmeets⟩
    exact ⟨hshort, hmeets, by omega⟩
  · rintro ⟨hshort, hmeets, -⟩
    exact ⟨hshort, hmeets⟩

/-- The message has a guest address copied. -/
def IsCopy (vpt : VpTransfer) : Prop :=
  vpt.data.type = VpType.vpWrite.code ∨ vpt.data.type = VpType.vpRead.code

instance (vpt : VpTransfer) : Decidable (IsCopy vpt) := inferInstanceAs (Decidable (_ ∨ _))

/-- Serving the message leads into a callback of the device, past its
`client_is_connect` check. -/
def EntersCallback (vpm : VpIpcModule) (vpt : VpTransfer) : Prop :=
  IsCopy vpt ∧ namesWindow vpt.data.addr vpt.data.length = true ∧ clientIsConnect vpm = true

instance (vpm : VpIpcModule) (vpt : VpTransfer) : Decidable (EntersCallback vpm vpt) :=
  inferInstanceAs (Decidable (_ ∧ _))

/-! ## The threads -/

/-- A vCPU thread: outside the callbacks, at their `qemu_mutex_lock`, or in
`vp_b_transfer`. -/
inductive VcpuPoint where
  | outside
  | atLock
  | inTransfer
  deriving DecidableEq, Repr

/-- The thread is between getting the mutex and giving it up. -/
def VcpuPoint.holds : VcpuPoint → Bool
  | .inTransfer => true
  | .outside | .atLock => false

/-- `tcp_thread_func`: inside `qemu_cond_timedwait`, before `vp_wait`, in the `for` loop
with the messages that are left, at the `qemu_mutex_lock` of a callback that its copy led
to, or behind the loop. -/
inductive TcpPoint where
  | condWait
  | polling
  | serving (vpt : List VpTransfer)
  | atLock (vpt : VpTransfer) (rest : List VpTransfer)
  | ended
  deriving DecidableEq, Repr

/-- The thread is between getting the mutex and giving it up. -/
def TcpPoint.holds : TcpPoint → Bool
  | .polling | .serving _ | .atLock _ _ => true
  | .condWait | .ended => false

/-- The thread is at the `qemu_mutex_lock` of a callback. -/
def TcpPoint.isAtLock : TcpPoint → Bool
  | .atLock _ _ => true
  | .condWait | .polling | .serving _ | .ended => false

/-- The message that the `for` loop turns to. -/
def TcpPoint.nextMessage : TcpPoint → Option VpTransfer
  | .serving (vpt :: _) => some vpt
  | .serving [] | .condWait | .polling | .atLock _ _ | .ended => none

/-- The mutex with its owner, the threads, and the record of the module. -/
structure MutexState (ι : Type*) where
  owner : Option (Owner ι)
  vcpu : ι → VcpuPoint
  tcp : TcpPoint
  vpm : VpIpcModule

/-- What a thread can do next. -/
inductive MutexAction (ι : Type*) where
  | vcpuAccess (index : ι)
  | vcpuLock (index : ι)
  | vcpuUnlock (index : ι)
  | tcpLock
  | tcpWait (events : List EpollEvent)
  | tcpServe
  | tcpRelock
  | tcpLoop (running : Bool)

section Mutex

variable {ι : Type*}

/-- The device after `mmio_bus_realize`: the thread has yet to get the mutex. -/
def MutexState.initial (vpm : VpIpcModule) : MutexState ι where
  owner := none
  vcpu := fun _ => .outside
  tcp := .condWait
  vpm := vpm

/-- The thread waits for `dev->mutex`. -/
def MutexState.Waits (s : MutexState ι) : Owner ι → Prop
  | .vcpu i => s.vcpu i = .atLock
  | .tcpThread => s.tcp = .condWait ∨ s.tcp.isAtLock = true

/-- A thread waits for `dev->mutex` while it owns it. -/
def SelfLocked (s : MutexState ι) : Prop :=
  ∃ who, s.owner = some who ∧ s.Waits who

/-- The step serves a message that leads into a callback. -/
def ServesOwnWindow (s : MutexState ι) : MutexAction ι → Prop
  | .tcpServe => ∃ vpt ∈ s.tcp.nextMessage, EntersCallback s.vpm vpt
  | .vcpuAccess _ | .vcpuLock _ | .vcpuUnlock _ | .tcpLock | .tcpWait _ | .tcpRelock
  | .tcpLoop _ => False

instance (s : MutexState ι) : (action : MutexAction ι) → Decidable (ServesOwnWindow s action)
  | .tcpServe => inferInstanceAs (Decidable (∃ vpt ∈ s.tcp.nextMessage, EntersCallback s.vpm vpt))
  | .vcpuAccess _ | .vcpuLock _ | .vcpuUnlock _ | .tcpLock | .tcpWait _ | .tcpRelock
  | .tcpLoop _ => inferInstanceAs (Decidable False)

/-! ## Who owns the mutex -/

/-- The owner is the thread that is between getting the mutex and giving it up. -/
def MutexSound (s : MutexState ι) : Prop :=
  HeldBy s.owner (threadsInside VcpuPoint.holds TcpPoint.holds s.vcpu s.tcp)

variable {s : MutexState ι}

theorem mutexSound_initial (vpm : VpIpcModule) :
    MutexSound (MutexState.initial vpm : MutexState ι) := by
  refine heldBy_none fun who => ?_
  cases who with
  | vcpu i => exact nofun
  | tcpThread => exact nofun

/-- The serving thread moves without getting or giving up the mutex. -/
theorem MutexSound.of_tcp (h : MutexSound s) {point : TcpPoint} {vpm : VpIpcModule}
    (hholds : point.holds = s.tcp.holds) : MutexSound { s with tcp := point, vpm := vpm } := by
  refine HeldBy.move h (othersStay_tcp s.vcpu s.tcp point) ?_
  show point.holds = true ↔ s.tcp.holds = true
  rw [hholds]

/-- The thread that waits for its own mutex is the serving thread in a callback. -/
theorem selfLocked_iff (h : MutexSound s) : SelfLocked s ↔ s.tcp.isAtLock = true := by
  constructor
  · rintro ⟨who, howner, hwaits⟩
    cases who with
    | vcpu i =>
        have hholds : (s.vcpu i).holds = true := (h (.vcpu i)).mpr howner
        have hwaiting : s.vcpu i = .atLock := hwaits
        rw [hwaiting] at hholds
        cases hholds
    | tcpThread =>
        rcases hwaits with hpoint | hpoint
        · have hholds : s.tcp.holds = true := (h .tcpThread).mpr howner
          rw [hpoint] at hholds
          cases hholds
        · exact hpoint
  · intro hpoint
    refine ⟨.tcpThread, (h .tcpThread).mp ?_, Or.inr hpoint⟩
    show s.tcp.holds = true
    cases htcp : s.tcp with
    | atLock vpt rest => rfl
    | condWait => rw [htcp] at hpoint; cases hpoint
    | polling => rw [htcp] at hpoint; cases hpoint
    | serving vpt => rw [htcp] at hpoint; cases hpoint
    | ended => rw [htcp] at hpoint; cases hpoint

/-! ## Steps -/

variable [DecidableEq ι]

/-- One step of one thread; `none` when the thread is not at that point or is blocked. -/
def mutexStep (s : MutexState ι) : MutexAction ι → Option (MutexState ι)
  -- A guest access of the window: `client_is_connect`, then `qemu_mutex_lock`.
  | .vcpuAccess i =>
      match s.vcpu i with
      | .outside =>
          if clientIsConnect s.vpm then
            some { s with vcpu := Function.update s.vcpu i .atLock }
          else some s
      | _ => none
  | .vcpuLock i =>
      match s.vcpu i, s.owner with
      | .atLock, none =>
          some { s with
            owner := some (.vcpu i)
            vcpu := Function.update s.vcpu i .inTransfer }
      | _, _ => none
  | .vcpuUnlock i =>
      match s.vcpu i with
      | .inTransfer =>
          some { s with owner := none, vcpu := Function.update s.vcpu i .outside }
      | _ => none
  -- The return from `qemu_cond_timedwait`.
  | .tcpLock =>
      match s.tcp, s.owner with
      | .condWait, none => some { s with owner := some .tcpThread, tcp := .polling }
      | _, _ => none
  | .tcpWait events =>
      match s.tcp with
      | .polling =>
          let wait := vpWait .qemu s.vpm (some events)
          if wait.exited ∨ callerArrayLength < wait.vpt.length then none
          else some { s with tcp := .serving wait.vpt, vpm := wait.vpm }
      | _ => none
  | .tcpServe =>
      match s.tcp with
      | .serving (vpt :: rest) =>
          if EntersCallback s.vpm vpt then some { s with tcp := .atLock vpt rest }
          else some { s with tcp := .serving rest }
      | _ => none
  -- Were the mutex free, the callback would take it, transfer and give it up.
  | .tcpRelock =>
      match s.tcp, s.owner with
      | .atLock _ rest, none => some { s with tcp := .serving rest }
      | _, _ => none
  -- The `for` loop is done; `thread_running` decides about the next turn.
  | .tcpLoop running =>
      match s.tcp with
      | .serving [] =>
          some { s with owner := none, tcp := if running then .condWait else .ended }
      | _ => none

/-- The effect of a step, with what has to hold before it. -/
inductive MutexEffect (s : MutexState ι) : MutexAction ι → MutexState ι → Prop
  | vcpuAccess (i : ι) (hpoint : s.vcpu i = .outside) (hconnected : clientIsConnect s.vpm = true) :
      MutexEffect s (.vcpuAccess i) { s with vcpu := Function.update s.vcpu i .atLock }
  | vcpuRefused (i : ι) (hpoint : s.vcpu i = .outside)
      (hconnected : clientIsConnect s.vpm = false) : MutexEffect s (.vcpuAccess i) s
  | vcpuLock (i : ι) (hpoint : s.vcpu i = .atLock) (hfree : s.owner = none) :
      MutexEffect s (.vcpuLock i)
        { s with owner := some (.vcpu i), vcpu := Function.update s.vcpu i .inTransfer }
  | vcpuUnlock (i : ι) (hpoint : s.vcpu i = .inTransfer) :
      MutexEffect s (.vcpuUnlock i)
        { s with owner := none, vcpu := Function.update s.vcpu i .outside }
  | tcpLock (hpoint : s.tcp = .condWait) (hfree : s.owner = none) :
      MutexEffect s .tcpLock { s with owner := some .tcpThread, tcp := .polling }
  | tcpWait (events : List EpollEvent) (hpoint : s.tcp = .polling)
      (hlive : (vpWait .qemu s.vpm (some events)).exited = false)
      (hfits : (vpWait .qemu s.vpm (some events)).vpt.length ≤ callerArrayLength) :
      MutexEffect s (.tcpWait events)
        { s with
          tcp := .serving (vpWait .qemu s.vpm (some events)).vpt
          vpm := (vpWait .qemu s.vpm (some events)).vpm }
  | tcpEnter (vpt : VpTransfer) (rest : List VpTransfer)
      (hpoint : s.tcp = .serving (vpt :: rest)) (henters : EntersCallback s.vpm vpt) :
      MutexEffect s .tcpServe { s with tcp := .atLock vpt rest }
  | tcpServe (vpt : VpTransfer) (rest : List VpTransfer)
      (hpoint : s.tcp = .serving (vpt :: rest)) (hreturns : ¬EntersCallback s.vpm vpt) :
      MutexEffect s .tcpServe { s with tcp := .serving rest }
  | tcpRelock (vpt : VpTransfer) (rest : List VpTransfer) (hpoint : s.tcp = .atLock vpt rest)
      (hfree : s.owner = none) : MutexEffect s .tcpRelock { s with tcp := .serving rest }
  | tcpLoop (running : Bool) (hpoint : s.tcp = .serving []) :
      MutexEffect s (.tcpLoop running)
        { s with owner := none, tcp := if running then .condWait else .ended }

/-- Every step has one of these effects. -/
theorem mutex_effect {s next : MutexState ι} {action : MutexAction ι}
    (hstep : mutexStep s action = some next) : MutexEffect s action next := by
  cases action with
  | vcpuAccess i =>
      rw [mutexStep] at hstep
      split at hstep
      · rename_i hpoint
        split at hstep
        · rename_i hconnected
          obtain rfl := Option.some.inj hstep
          exact .vcpuAccess i hpoint hconnected
        · rename_i hconnected
          obtain rfl := Option.some.inj hstep
          exact .vcpuRefused i hpoint (Bool.eq_false_of_not_eq_true hconnected)
      · contradiction
  | vcpuLock i =>
      rw [mutexStep] at hstep
      split at hstep
      · rename_i hpoint hfree
        obtain rfl := Option.some.inj hstep
        exact .vcpuLock i hpoint hfree
      · contradiction
  | vcpuUnlock i =>
      rw [mutexStep] at hstep
      split at hstep
      · rename_i hpoint
        obtain rfl := Option.some.inj hstep
        exact .vcpuUnlock i hpoint
      · contradiction
  | tcpLock =>
      rw [mutexStep] at hstep
      split at hstep
      · rename_i hpoint hfree
        obtain rfl := Option.some.inj hstep
        exact .tcpLock hpoint hfree
      · contradiction
  | tcpWait events =>
      rw [mutexStep] at hstep
      split at hstep
      · rename_i hpoint
        dsimp only at hstep
        split at hstep
        · contradiction
        · rename_i hstops
          obtain ⟨hlive, hfits⟩ := not_or.mp hstops
          obtain rfl := Option.some.inj hstep
          exact .tcpWait events hpoint (Bool.eq_false_of_not_eq_true hlive) (Nat.not_lt.mp hfits)
      · contradiction
  | tcpServe =>
      rw [mutexStep] at hstep
      split at hstep
      · rename_i vpt rest hpoint
        split at hstep
        · rename_i henters
          obtain rfl := Option.some.inj hstep
          exact .tcpEnter vpt rest hpoint henters
        · rename_i hreturns
          obtain rfl := Option.some.inj hstep
          exact .tcpServe vpt rest hpoint hreturns
      · contradiction
  | tcpRelock =>
      rw [mutexStep] at hstep
      split at hstep
      · rename_i vpt rest hpoint hfree
        obtain rfl := Option.some.inj hstep
        exact .tcpRelock vpt rest hpoint hfree
      · contradiction
  | tcpLoop running =>
      rw [mutexStep] at hstep
      split at hstep
      · rename_i hpoint
        obtain rfl := Option.some.inj hstep
        exact .tcpLoop running hpoint
      · contradiction

/-! ## Runs -/

variable {next : MutexState ι} {action : MutexAction ι}

/-- The thread that gets the mutex finds it free; the one that gives it up has it. -/
theorem mutexSound_step (s : MutexState ι) (action : MutexAction ι) (next : MutexState ι)
    (h : MutexSound s) (hstep : mutexStep s action = some next) : MutexSound next := by
  cases mutex_effect hstep with
  | vcpuAccess i hpoint hconnected =>
      refine HeldBy.move h (othersStay_vcpu s.vcpu s.tcp i .atLock) ?_
      rw [threadsInside_update]
      show VcpuPoint.holds .atLock = true ↔ (s.vcpu i).holds = true
      rw [hpoint]
      exact Iff.rfl
  | vcpuRefused i hpoint hconnected => exact h
  | vcpuLock i hpoint hfree =>
      unfold MutexSound at h
      rw [hfree] at h
      exact h.acquire (othersStay_vcpu s.vcpu s.tcp i .inTransfer)
        ((threadsInside_update s.vcpu s.tcp i .inTransfer).mpr rfl)
  | vcpuUnlock i hpoint =>
      refine HeldBy.release h (othersStay_vcpu s.vcpu s.tcp i .outside) ?_ ?_
      · show (s.vcpu i).holds = true
        rw [hpoint]
        rfl
      · rw [threadsInside_update]
        exact nofun
  | tcpLock hpoint hfree =>
      unfold MutexSound at h
      rw [hfree] at h
      exact h.acquire (othersStay_tcp s.vcpu s.tcp .polling) rfl
  | tcpWait events hpoint hlive hfits => exact h.of_tcp (by rw [hpoint]; rfl)
  | tcpEnter vpt rest hpoint henters => exact h.of_tcp (by rw [hpoint]; rfl)
  | tcpServe vpt rest hpoint hreturns => exact h.of_tcp (by rw [hpoint]; rfl)
  | tcpRelock vpt rest hpoint hfree => exact h.of_tcp (by rw [hpoint]; rfl)
  | tcpLoop running hpoint =>
      refine HeldBy.release h (othersStay_tcp s.vcpu s.tcp _) ?_ ?_
      · show s.tcp.holds = true
        rw [hpoint]
        rfl
      · cases running <;> exact nofun

/-- A step leads into such a state exactly when it serves a message of the window. -/
theorem not_selfLocked_step_iff (s : MutexState ι) (action : MutexAction ι)
    (next : MutexState ι) (h : MutexSound s) (hfine : ¬SelfLocked s)
    (hstep : mutexStep s action = some next) :
    ¬SelfLocked next ↔ ¬ServesOwnWindow s action := by
  rw [selfLocked_iff (mutexSound_step s action next h hstep)]
  rw [selfLocked_iff h] at hfine
  cases mutex_effect hstep with
  | vcpuAccess i hpoint hconnected => exact iff_of_true hfine id
  | vcpuRefused i hpoint hconnected => exact iff_of_true hfine id
  | vcpuLock i hpoint hfree => exact iff_of_true hfine id
  | vcpuUnlock i hpoint => exact iff_of_true hfine id
  | tcpLock hpoint hfree => exact iff_of_true nofun id
  | tcpWait events hpoint hlive hfits => exact iff_of_true nofun id
  | tcpEnter vpt rest hpoint henters =>
      exact iff_of_false (fun hnot => hnot rfl)
        fun hguard => hguard ⟨vpt, by rw [hpoint]; rfl, henters⟩
  | tcpServe vpt rest hpoint hreturns =>
      refine iff_of_true nofun ?_
      rintro ⟨served, hserving, henters⟩
      rw [hpoint] at hserving
      obtain rfl := Option.some.inj hserving
      exact hreturns henters
  | tcpRelock vpt rest hpoint hfree => exact iff_of_true nofun id
  | tcpLoop running hpoint =>
      refine iff_of_true ?_ id
      cases running <;> nofun

/-- Nothing ends the wait: the mutex is not free, and only the waiting thread could free
it. -/
theorem selfLocked_step (h : MutexSound s) (hlocked : SelfLocked s)
    (hstep : mutexStep s action = some next) : SelfLocked next := by
  rw [selfLocked_iff (mutexSound_step s action next h hstep)]
  rw [selfLocked_iff h] at hlocked
  cases mutex_effect hstep with
  | vcpuAccess i hpoint hconnected => exact hlocked
  | vcpuRefused i hpoint hconnected => exact hlocked
  | vcpuLock i hpoint hfree => exact hlocked
  | vcpuUnlock i hpoint => exact hlocked
  | tcpLock hpoint hfree => rw [hpoint] at hlocked; cases hlocked
  | tcpWait events hpoint hlive hfits => rw [hpoint] at hlocked; cases hlocked
  | tcpEnter vpt rest hpoint henters => rfl
  | tcpServe vpt rest hpoint hreturns => rw [hpoint] at hlocked; cases hlocked
  | tcpRelock vpt rest hpoint hfree =>
      have hholds : s.tcp.holds = true := by
        rw [hpoint]
        rfl
      have howner := (h .tcpThread).mp hholds
      rw [hfree] at howner
      cases howner
  | tcpLoop running hpoint => rw [hpoint] at hlocked; cases hlocked

/-- No state of a run has a thread waiting for the mutex it owns if and only if no step of
the run serves a read or write that names a byte of the window while a client is
connected. -/
theorem never_selfLocked_iff (vpm : VpIpcModule) (actions : List (MutexAction ι))
    (final : MutexState ι)
    (hrun : runFrom mutexStep (MutexState.initial vpm) actions = some final) :
    HoldsAlong mutexStep (fun s => ¬SelfLocked s) (MutexState.initial vpm) actions ↔
      GuardedRun mutexStep (fun s action => ¬ServesOwnWindow s action)
        (MutexState.initial vpm) actions := by
  have hinitial : ¬SelfLocked (MutexState.initial vpm : MutexState ι) := by
    rw [selfLocked_iff (mutexSound_initial vpm)]
    exact Bool.false_ne_true
  exact holdsAlong_iff_guardedRun mutexSound_step not_selfLocked_step_iff
    (mutexSound_initial vpm) hinitial hrun

end Mutex

/-! ## Two runs -/

/-- The record that `create_vp_module` returns to the device. -/
def deviceModule : VpIpcModule := (createVpModule .server 3 4).1

/-- A client connects on descriptor 5 and sends a message. -/
def deliver (message : VpTransferData) : List (MutexAction Nat) :=
  [ .tcpLock, .tcpWait [EpollEvent.connection deviceModule 5], .tcpLoop true, .tcpLock,
    .tcpWait [EpollEvent.input 5 (.piece (Piece.whole message))] ]

/-- A vCPU accesses the window and has to wait while a read of RAM is served. -/
def ramReadRun : List (MutexAction Nat) :=
  deliver { type := VpType.vpRead.code, length := 8, addr := 0x80000000, data := 0 } ++
    [.vcpuAccess 0, .tcpServe, .tcpLoop true, .vcpuLock 0, .vcpuAccess 1, .vcpuUnlock 0]

theorem never_selfLocked_ramReadRun :
    HoldsAlong mutexStep (fun s => ¬SelfLocked s) (MutexState.initial deviceModule) ramReadRun :=
  (never_selfLocked_iff deviceModule ramReadRun _ rfl).mpr (by decide)

/-- A read whose range ends with the first byte of the window. -/
def overlappingRead : VpTransferData where
  type := VpType.vpRead.code
  length := 4
  addr := mmioAddr - 3
  data := 0

/-- The serving thread waits for the mutex that it owns. -/
theorem overlapping_read_locks_itself :
    ∃ final, runFrom mutexStep (MutexState.initial deviceModule)
        (deliver overlappingRead ++ [.tcpServe]) = some final ∧
      final.owner = some .tcpThread ∧ final.Waits .tcpThread ∧ SelfLocked final :=
  ⟨_, rfl, rfl, Or.inr rfl, .tcpThread, rfl, Or.inr rfl⟩

end Platform
end AislabVP
