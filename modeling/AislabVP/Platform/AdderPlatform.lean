import AislabVP.Platform.Mmio
import AislabVP.Qemu.Adder

/-!
# The adder without a sum

The adder with `thread_process` at the other end of its connection.  A request of a data
register asks for zero bytes, because `VP_OK` stands in its length: the target accepts it, and
nothing moves.  So the guest cannot tell the pair from a register file that has no peer
(`RegisterFile`): `REG_INIT` and `REG_INT_STATUS` work, every write of a data register raises the
interrupt, and all other registers read zero, `REG_ID` too.

Before the thread has created the module the record is zero.  With `vpipc.c` such a record is
connected, to descriptor zero, so a data register would send its request there.  The result is
about runs without that (`StartsBeforeRequests`); the other registers may be accessed at
any time.

Of the library it is linked with only that the requests of a module that the thread has created
reach the dispatcher is assumed (`ReachesDispatch`); `vpipc.c` is such a library.
-/

namespace AislabVP
namespace Platform

open Foundation Vpipc Qemu SystemC

/-- Two registers, an interrupt line, a connection and the thread that makes it. -/
structure RegisterFile (Vpm : Type*) where
  vpm : Vpm
  thread : AdderThread
  irq : Bool
  init : BitVec 32
  status : BitVec 32
  deriving DecidableEq, Repr

section File

variable {Vpm Event Peer : Type*} (pipe : VpipcPipe Vpm Event Peer)

/-- The accesses that have an effect or a value. -/
def RegisterFile.isOn (file : RegisterFile Vpm) : Bool :=
  decide (file.init &&& chipEn ≠ 0) && pipe.clientIsConnect file.vpm

/-- The value of a register. -/
def RegisterFile.value (file : RegisterFile Vpm) (offset : BitVec 64) : BitVec 64 :=
  if file.isOn pipe then
    match AdderReg.ofOffset offset with
    | some .init => file.init.setWidth 64
    | some .intStatus => file.status.setWidth 64
    | _ => 0
  else 0

/-- Reading the status lowers the line. -/
def RegisterFile.afterRead (file : RegisterFile Vpm) (offset : BitVec 64) : RegisterFile Vpm :=
  if file.isOn pipe ∧ AdderReg.ofOffset offset = some .intStatus then { file with irq := false }
  else file

/-- A write raises the line, whether the chip is enabled or not. -/
def RegisterFile.afterWrite (file : RegisterFile Vpm) (offset value : BitVec 64) :
    RegisterFile Vpm :=
  if pipe.clientIsConnect file.vpm then
    match AdderReg.ofOffset offset with
    | some .init =>
        if value = 0 then { file with init := 0 }
        else { file with init := value.setWidth 32, status := intEnabled, irq := true }
    | some .a | some .b => { file with status := intBufferDeq, irq := true }
    | _ => file
  else file

/-- One action of the register file. -/
def RegisterFile.step (file : RegisterFile Vpm) :
    AdderAction Event → Option (RegisterFile Vpm × AdderOutput)
  | .read offset =>
      let next := file.afterRead pipe offset
      some (next, { value := some (file.value pipe offset), irq := next.irq })
  | .write offset value =>
      let next := file.afterWrite pipe offset value
      some (next, { value := none, irq := next.irq })
  | .tcpStart =>
      match file.thread with
      | .starting =>
          some ({ file with vpm := pipe.createVpModule, thread := .waiting },
            { value := none, irq := file.irq })
      | .waiting | .connected => none
  | .tcpTurn event =>
      match file.thread with
      | .waiting =>
          (pipe.vpWait file.vpm event).map fun vpm =>
            ({ file with vpm := vpm, thread := pipe.threadAfter vpm },
              { value := none, irq := file.irq })
      | .starting | .connected => none

/-- The register file that an adder is. -/
def RegisterFile.ofAdder (dev : AdderDevice Vpm) : RegisterFile Vpm where
  vpm := dev.vpm
  thread := dev.thread
  irq := dev.irq
  init := dev.init
  status := dev.status

@[simp] theorem vpm_ofAdder (dev : AdderDevice Vpm) :
    (RegisterFile.ofAdder dev).vpm = dev.vpm := rfl

@[simp] theorem thread_ofAdder (dev : AdderDevice Vpm) :
    (RegisterFile.ofAdder dev).thread = dev.thread := rfl

theorem isOn_ofAdder (dev : AdderDevice Vpm) :
    (RegisterFile.ofAdder dev).isOn pipe = true ↔
      dev.init &&& chipEn ≠ 0 ∧ pipe.clientIsConnect dev.vpm = true := by
  rw [RegisterFile.isOn, Bool.and_eq_true, decide_eq_true_iff]
  exact Iff.rfl

end File

/-- The modules that the thread can have made. -/
inductive Created {Vpm Event Peer : Type*} (pipe : VpipcPipe Vpm Event Peer) : Vpm → Prop where
  | create : Created pipe pipe.createVpModule
  | wait {vpm next : Vpm} {event : Event} (hcreated : Created pipe vpm)
      (hwait : pipe.vpWait vpm event = some next) : Created pipe next

/-- `thread_process` is at the other end: a `vp_b_transfer` of a module that the thread has made
and that is connected hands the request to its loop body and returns the response. -/
def ReachesDispatch {Vpm Event : Type*} (pipe : VpipcPipe Vpm Event QemuCpu) : Prop :=
  ∀ vpm, Created pipe vpm → pipe.clientIsConnect vpm = true →
    ∃ sockFd, ∀ cpu next request resp,
      cpu.dispatch { sockFd := sockFd, data := request } = (next, .ok resp) →
        pipe.vpBTransfer vpm cpu request = (next, some resp.data)

/-! ## Accesses before the module is created -/

section Start

variable {Event : Type*}

/-- The accesses for which the callbacks ask the SystemC side. -/
def asksPeer : AdderAction Event → Bool
  | .read offset =>
      match AdderReg.ofOffset offset with
      | some .a | some .b | some .o => true
      | _ => false
  | .write offset _ =>
      match AdderReg.ofOffset offset with
      | some .a | some .b => true
      | _ => false
  | .tcpStart | .tcpTurn _ => false

/-- The action that creates the module. -/
def isTcpStart : AdderAction Event → Bool
  | .tcpStart => true
  | .read _ | .write _ _ | .tcpTurn _ => false

/-- No access before the first statement of the thread asks the SystemC side. -/
def StartsBeforeRequests (actions : List (AdderAction Event)) : Prop :=
  ∀ action ∈ actions.takeWhile fun action => !isTcpStart action, asksPeer action = false

theorem startsBeforeRequests_cons {action : AdderAction Event}
    {rest : List (AdderAction Event)} (hstarts : StartsBeforeRequests (action :: rest))
    (haction : isTcpStart action = false) :
    asksPeer action = false ∧ StartsBeforeRequests rest := by
  have htake : (action :: rest).takeWhile (fun action => !isTcpStart action) =
      action :: rest.takeWhile fun action => !isTcpStart action :=
    List.takeWhile_cons_of_pos (by rw [haction]; rfl)
  rw [StartsBeforeRequests, htake, List.forall_mem_cons] at hstarts
  exact hstarts

variable {Vpm Peer : Type*} (pipe : VpipcPipe Vpm Event Peer)

/-- An access that asks the SystemC side finds the module of the thread. -/
def Ready (file : RegisterFile Vpm) (action : AdderAction Event) : Prop :=
  asksPeer action = true → file.thread ≠ .starting

theorem thread_afterRead (file : RegisterFile Vpm) (offset : BitVec 64) :
    (file.afterRead pipe offset).thread = file.thread := by
  rw [RegisterFile.afterRead]
  split <;> rfl

theorem thread_afterWrite (file : RegisterFile Vpm) (offset value : BitVec 64) :
    (file.afterWrite pipe offset value).thread = file.thread := by
  rw [RegisterFile.afterWrite]
  split
  · split
    · split <;> rfl
    all_goals rfl
  · rfl

theorem thread_threadAfter (vpm : Vpm) : pipe.threadAfter vpm ≠ .starting := by
  rw [VpipcPipe.threadAfter]
  split <;> decide

/-- A thread that has started does not go back to its start. -/
theorem started_step {file next : RegisterFile Vpm} {action : AdderAction Event}
    {output : AdderOutput} (hstep : file.step pipe action = some (next, output))
    (hstarted : isTcpStart action = true ∨ file.thread ≠ .starting) :
    next.thread ≠ .starting := by
  cases action with
  | read offset =>
      obtain ⟨rfl, -⟩ := Prod.mk.inj (Option.some.inj hstep)
      rw [thread_afterRead]
      exact hstarted.resolve_left Bool.false_ne_true
  | write offset value =>
      obtain ⟨rfl, -⟩ := Prod.mk.inj (Option.some.inj hstep)
      rw [thread_afterWrite]
      exact hstarted.resolve_left Bool.false_ne_true
  | tcpStart =>
      rw [RegisterFile.step] at hstep
      split at hstep
      · obtain ⟨rfl, -⟩ := Prod.mk.inj (Option.some.inj hstep)
        exact AdderThread.noConfusion
      · cases hstep
      · cases hstep
  | tcpTurn event =>
      rw [RegisterFile.step] at hstep
      split at hstep
      · obtain ⟨vpm, -, hnext⟩ := Option.map_eq_some_iff.mp hstep
        obtain ⟨rfl, -⟩ := Prod.mk.inj hnext
        exact thread_threadAfter pipe vpm
      · cases hstep
      · cases hstep

/-- From then on every access is ready. -/
theorem allowedRun_of_started (actions : List (AdderAction Event)) {file : RegisterFile Vpm}
    (hstarted : file.thread ≠ .starting) :
    AllowedRun (RegisterFile.step pipe) Ready file actions := by
  induction actions generalizing file with
  | nil => trivial
  | cons action rest ih =>
      exact ⟨fun _ => hstarted, fun next output hstep =>
        ih (started_step pipe hstep (.inr hstarted))⟩

theorem allowedRun_of_startsBeforeRequests {actions : List (AdderAction Event)}
    (hstarts : StartsBeforeRequests actions) (file : RegisterFile Vpm) :
    AllowedRun (RegisterFile.step pipe) Ready file actions := by
  induction actions generalizing file with
  | nil => trivial
  | cons action rest ih =>
      cases haction : isTcpStart action with
      | true =>
          have hready : Ready file action := by
            intro hasks
            cases action with
            | tcpStart => cases hasks
            | read | write | tcpTurn => cases haction
          exact ⟨hready, fun next output hstep =>
            allowedRun_of_started pipe rest (started_step pipe hstep (.inl haction))⟩
      | false =>
          obtain ⟨hasks, hrest⟩ := startsBeforeRequests_cons hstarts haction
          have hready : Ready file action := by
            intro hasked
            rw [hasks] at hasked
            cases hasked
          exact ⟨hready, fun next output _ => ih hrest next⟩

end Start

section Peer

variable {Vpm Event : Type*} {pipe : VpipcPipe Vpm Event QemuCpu}

/-! ## The requests -/

theorem offset_lt_of_reg {offset : BitVec 64} {reg : AdderReg}
    (hreg : AdderReg.ofOffset offset = some reg) : offset.toNat < 0x18 := by
  unfold AdderReg.ofOffset at hreg
  split at hreg <;> first | omega | cases hreg

/-- Zero bytes at a register are a transfer the target accepts. -/
theorem accepts_adder {offset : BitVec 64} (hsmall : offset.toNat < 0x18) (value : BitVec 64) :
    Accepts (readTransaction (adderReadRequest offset)) ∧
      Accepts (writeTransaction (adderWriteRequest offset value)) := by
  have hadr : offset.toNat / 4 < memorySize := by
    unfold memorySize
    omega
  have hlength : ((vpOk : BitVec 64).setWidth 32).toNat ≤ 4 := by decide
  exact ⟨(accepts_setupTransaction_iff _ _ _).mpr ⟨hadr, hlength⟩,
    (accepts_setupTransaction_iff _ _ _).mpr ⟨hadr, hlength⟩⟩

/-- A data register reads zero. -/
theorem vpBTransfer_adderRead (hpipe : ReachesDispatch pipe) {vpm : Vpm}
    (hcreated : Created pipe vpm) (hconnected : pipe.clientIsConnect vpm = true)
    (cpu : QemuCpu) {offset : BitVec 64} (hsmall : offset.toNat < 0x18) :
    ∃ next response,
      pipe.vpBTransfer vpm cpu (adderReadRequest offset) = (next, some response) ∧
        response.data = 0 ∧ next.memory = cpu.memory := by
  obtain ⟨sockFd, hreaches⟩ := hpipe vpm hcreated hconnected
  have hdispatch := dispatch_read cpu { sockFd := sockFd, data := adderReadRequest offset } rfl
    (accepts_adder hsmall 0).1
  exact ⟨_, _, hreaches _ _ _ _ hdispatch, rfl, rfl⟩

/-- A data register keeps nothing. -/
theorem vpBTransfer_adderWrite (hpipe : ReachesDispatch pipe) {vpm : Vpm}
    (hcreated : Created pipe vpm) (hconnected : pipe.clientIsConnect vpm = true)
    (cpu : QemuCpu) {offset : BitVec 64} (hsmall : offset.toNat < 0x18) (value : BitVec 64) :
    ∃ next response,
      pipe.vpBTransfer vpm cpu (adderWriteRequest offset value) = (next, some response) ∧
        next.memory = cpu.memory := by
  obtain ⟨sockFd, hreaches⟩ := hpipe vpm hcreated hconnected
  have hdispatch := dispatch_write cpu
    { sockFd := sockFd, data := adderWriteRequest offset value } rfl
    (accepts_adder hsmall value).2
  refine ⟨_, _, hreaches _ _ _ _ hdispatch, congrArg Memory.mk ?_⟩
  exact ((writeBytes_eq_self_iff _ _ []).mpr rfl).symm

/-! ## The device and the register file -/

/-- The adder shows the register file, and the target still has its first content. -/
structure IsRegisterFile (pipe : VpipcPipe Vpm Event QemuCpu) (memory : Memory)
    (both : AdderDevice Vpm × QemuCpu) (file : RegisterFile Vpm) : Prop where
  file : RegisterFile.ofAdder both.1 = file
  id : both.1.id = 0
  memory : both.2.memory = memory
  created : both.1.thread ≠ .starting → Created pipe both.1.vpm

/-- A read that comes back with a value. -/
theorem adderStep_read {both next : AdderDevice Vpm × QemuCpu} {offset value : BitVec 64}
    (hread : adderRead pipe both.1 both.2 offset = (next, some value)) :
    adderStep pipe both (.read offset) =
      some (next, { value := some value, irq := next.1.irq }) := by
  rw [adderStep, hread]

theorem adderStep_write {both next : AdderDevice Vpm × QemuCpu} {offset value : BitVec 64}
    (hwrite : adderWrite pipe both.1 both.2 offset value = (next, some ())) :
    adderStep pipe both (.write offset value) =
      some (next, { value := none, irq := next.1.irq }) := by
  rw [adderStep, hwrite]

/-- A device that is disabled or without client reads zero. -/
theorem adderRead_of_off {dev : AdderDevice Vpm}
    (hoff : ¬(RegisterFile.ofAdder dev).isOn pipe = true) (cpu : QemuCpu) (offset : BitVec 64) :
    adderRead pipe dev cpu offset = ((dev, cpu), some 0) := by
  rw [adderRead]
  by_cases henabled : dev.init &&& chipEn = 0
  · rw [if_pos henabled]
  · have hconnected : pipe.clientIsConnect dev.vpm = false := by
      rw [isOn_ofAdder] at hoff
      rw [← Bool.not_eq_true]
      exact fun hclient => hoff ⟨henabled, hclient⟩
    rw [if_neg henabled, if_pos hconnected]

/-- Otherwise the register decides. -/
theorem adderRead_of_on {dev : AdderDevice Vpm}
    (hon : (RegisterFile.ofAdder dev).isOn pipe = true) (cpu : QemuCpu) (offset : BitVec 64) :
    adderRead pipe dev cpu offset =
      adderReadReg pipe dev cpu offset (AdderReg.ofOffset offset) := by
  obtain ⟨henabled, hconnected⟩ := (isOn_ofAdder pipe dev).mp hon
  have hclient : ¬pipe.clientIsConnect dev.vpm = false := by
    rw [Bool.not_eq_false]
    exact hconnected
  rw [adderRead, if_neg henabled, if_neg hclient]

/-- `adder_read` is the read of the register file. -/
theorem adderRead_registerFile (hpipe : ReachesDispatch pipe) {memory : Memory}
    {dev : AdderDevice Vpm} {cpu : QemuCpu}
    (hsame : IsRegisterFile pipe memory (dev, cpu) (RegisterFile.ofAdder dev))
    {offset : BitVec 64}
    (hready : Ready (RegisterFile.ofAdder dev) (.read offset : AdderAction Event)) :
    ∃ next,
      adderRead pipe dev cpu offset =
        (next, some ((RegisterFile.ofAdder dev).value pipe offset)) ∧
      IsRegisterFile pipe memory next ((RegisterFile.ofAdder dev).afterRead pipe offset) := by
  rw [RegisterFile.value, RegisterFile.afterRead]
  by_cases hon : (RegisterFile.ofAdder dev).isOn pipe = true
  · rw [adderRead_of_on hon, if_pos hon]
    rw [Ready, asksPeer] at hready
    cases hreg : AdderReg.ofOffset offset with
    | none => exact ⟨_, rfl, by simpa using hsame⟩
    | some reg =>
        rw [hreg] at hready
        cases reg with
        | id =>
            have hzero : dev.id = 0 := hsame.id
            exact ⟨(dev, cpu), by simp [adderReadReg, hzero], by simpa using hsame⟩
        | init => exact ⟨(dev, cpu), rfl, by simpa using hsame⟩
        | a | b | o =>
            obtain ⟨next, response, htransfer, hdata, hkept⟩ :=
              vpBTransfer_adderRead hpipe (hsame.created (hready rfl))
                ((isOn_ofAdder pipe dev).mp hon).2 cpu (offset_lt_of_reg hreg)
            have hnext : IsRegisterFile pipe memory (dev, next) (RegisterFile.ofAdder dev) :=
              ⟨rfl, hsame.id, hkept.trans hsame.memory, hsame.created⟩
            exact ⟨(dev, next), by simp [adderReadReg, htransfer, hdata], by simpa using hnext⟩
        | intStatus =>
            rw [if_pos ⟨hon, rfl⟩]
            exact ⟨(dev.adderClrIrq, cpu), rfl, rfl, hsame.id, hsame.memory, hsame.created⟩
  · rw [adderRead_of_off hon, if_neg hon, if_neg fun hboth => hon hboth.1]
    exact ⟨_, rfl, hsame⟩

/-- `adder_write` is the write of the register file. -/
theorem adderWrite_registerFile (hpipe : ReachesDispatch pipe) {memory : Memory}
    {dev : AdderDevice Vpm} {cpu : QemuCpu}
    (hsame : IsRegisterFile pipe memory (dev, cpu) (RegisterFile.ofAdder dev))
    {offset value : BitVec 64}
    (hready : Ready (RegisterFile.ofAdder dev) (.write offset value : AdderAction Event)) :
    ∃ next,
      adderWrite pipe dev cpu offset value = (next, some ()) ∧
      IsRegisterFile pipe memory next
        ((RegisterFile.ofAdder dev).afterWrite pipe offset value) := by
  rw [RegisterFile.afterWrite, adderWrite, vpm_ofAdder]
  by_cases hconnected : pipe.clientIsConnect dev.vpm = true
  · have hclient : ¬pipe.clientIsConnect dev.vpm = false := by
      rw [Bool.not_eq_false]
      exact hconnected
    rw [if_neg hclient, if_pos hconnected]
    rw [Ready, asksPeer] at hready
    cases hreg : AdderReg.ofOffset offset with
    | none => exact ⟨_, rfl, hsame⟩
    | some reg =>
        rw [hreg] at hready
        cases reg with
        | init =>
            by_cases hzero : value = 0
            · subst hzero
              exact ⟨_, rfl, rfl, hsame.id, hsame.memory, hsame.created⟩
            · dsimp only
              rw [if_pos hzero, if_neg hzero]
              exact ⟨_, rfl, rfl, hsame.id, hsame.memory, hsame.created⟩
        | a | b =>
            obtain ⟨next, response, htransfer, hkept⟩ :=
              vpBTransfer_adderWrite hpipe (hsame.created (hready rfl)) hconnected cpu
                (offset_lt_of_reg hreg) value
            exact ⟨(dev.adderSetIrq intBufferDeq, next), by simp [htransfer], rfl, hsame.id,
              hkept.trans hsame.memory, hsame.created⟩
        | id | o | intStatus => exact ⟨_, rfl, hsame⟩
  · rw [if_pos (Bool.eq_false_of_not_eq_true hconnected), if_neg hconnected]
    exact ⟨_, rfl, hsame⟩

/-- The first statement of the thread. -/
theorem tcpStart_registerFile {memory : Memory} {dev : AdderDevice Vpm} {cpu : QemuCpu}
    (hsame : IsRegisterFile pipe memory (dev, cpu) (RegisterFile.ofAdder dev)) :
    AlikeAt (IsRegisterFile pipe memory) (adderStep pipe) (RegisterFile.step pipe) (dev, cpu)
      (RegisterFile.ofAdder dev) .tcpStart := by
  rw [AlikeAt, adderStep, AdderDevice.tcpStart, RegisterFile.step, thread_ofAdder]
  cases dev.thread with
  | starting =>
      exact Or.inr ⟨_, _, _, rfl, rfl, rfl, hsame.id, hsame.memory, fun _ => .create⟩
  | waiting => exact Or.inl ⟨rfl, rfl⟩
  | connected => exact Or.inl ⟨rfl, rfl⟩

/-- A turn of its loop. -/
theorem tcpTurn_registerFile {memory : Memory} {dev : AdderDevice Vpm} {cpu : QemuCpu}
    (hsame : IsRegisterFile pipe memory (dev, cpu) (RegisterFile.ofAdder dev)) (event : Event) :
    AlikeAt (IsRegisterFile pipe memory) (adderStep pipe) (RegisterFile.step pipe) (dev, cpu)
      (RegisterFile.ofAdder dev) (.tcpTurn event) := by
  rw [AlikeAt, adderStep, AdderDevice.tcpTurn, RegisterFile.step, thread_ofAdder, vpm_ofAdder]
  cases hat : dev.thread with
  | starting => exact Or.inl ⟨rfl, rfl⟩
  | waiting =>
      have hcreated : Created pipe dev.vpm := hsame.created (by rw [hat]; decide)
      cases hturn : pipe.vpWait dev.vpm event with
      | none => exact Or.inl ⟨rfl, rfl⟩
      | some vpm =>
          exact Or.inr ⟨_, _, _, rfl, rfl, rfl, hsame.id, hsame.memory,
            fun _ => .wait hcreated hturn⟩
  | connected => exact Or.inl ⟨rfl, rfl⟩

/-- The device and the register file step alike. -/
theorem stepsAlike_adder (hpipe : ReachesDispatch pipe) (memory : Memory) :
    StepsAlike (IsRegisterFile pipe memory) Ready (adderStep pipe) (RegisterFile.step pipe) := by
  rintro ⟨dev, cpu⟩ file action hsame hready
  obtain rfl : RegisterFile.ofAdder dev = file := hsame.file
  cases action with
  | read offset =>
      obtain ⟨next, hread, hnext⟩ := adderRead_registerFile hpipe hsame hready
      refine Or.inr ⟨next, _, _, adderStep_read hread, ?_, hnext⟩
      rw [RegisterFile.step, ← hnext.file]
      rfl
  | write offset value =>
      obtain ⟨next, hwrite, hnext⟩ := adderWrite_registerFile hpipe hsame hready
      refine Or.inr ⟨next, _, _, adderStep_write hwrite, ?_, hnext⟩
      rw [RegisterFile.step, ← hnext.file]
      rfl
  | tcpStart => exact tcpStart_registerFile hsame
  | tcpTurn event => exact tcpTurn_registerFile hsame event

end Peer

/-- With the shipped dispatcher at the other end, the adder cannot be told from a register file
without peer, along any accesses and any turns of its thread, as long as no data register asks
for the SystemC side before the thread has created the module; and the target's memory stays
what it was. -/
theorem adder_is_registerFile {Vpm Event : Type*} (pipe : VpipcPipe Vpm Event QemuCpu)
    (hpipe : ReachesDispatch pipe) (cpu : QemuCpu) (actions : List (AdderAction Event))
    (hstarts : StartsBeforeRequests actions) :
    let run := runOutputs (adderStep pipe) (pipe.realized, cpu) actions
    let file := RegisterFile.ofAdder pipe.realized
    run.1 = (runOutputs (RegisterFile.step pipe) file actions).1 ∧
      RegisterFile.ofAdder run.2.1 = (runOutputs (RegisterFile.step pipe) file actions).2 ∧
      run.2.1.id ≠ chipId ∧ run.2.2.memory = cpu.memory := by
  intro run file
  have hstart : IsRegisterFile pipe cpu.memory (pipe.realized, cpu) file :=
    ⟨rfl, rfl, rfl, fun hstarted => absurd rfl hstarted⟩
  obtain ⟨houtputs, hfinal⟩ := runOutputs_alike (stepsAlike_adder hpipe cpu.memory) hstart
    (allowedRun_of_startsBeforeRequests pipe hstarts file)
  refine ⟨houtputs, hfinal.file, ?_, hfinal.memory⟩
  rw [show run.2.1.id = 0 from hfinal.id]
  decide

/-- The functions of `vpipc.c` in the place of `vpipc_pipe.c`. -/
def vpipcAsPipe (client : VpIpcModule) (epollFd serverFd : Int) :
    VpipcPipe VpIpcModule (List EpollEvent) QemuCpu where
  zeroVpm := { type := .server, epollFd := 0, sockFd := 0, serverFd := 0 }
  createVpModule := (createVpModule .server epollFd serverFd).1
  vpWait vpm events :=
    let result := Vpipc.vpWait .qemu vpm (some events)
    if result.exited then none else some result.vpm
  clientIsConnect := Vpipc.clientIsConnect
  vpBTransfer _ cpu request := Platform.vpBTransfer client cpu request

theorem reachesDispatch_vpipc {client : VpIpcModule} (htype : client.type = .client)
    (epollFd serverFd : Int) : ReachesDispatch (vpipcAsPipe client epollFd serverFd) :=
  fun _ _ _ => ⟨client.sockFd, fun _ _ _ _ hdispatch => vpBTransfer_of_dispatch htype hdispatch⟩

/-- The guest enables the chip before there is a module; SystemC connects, and twenty and
twenty-two are added. -/
def twentyAndTwentyTwo : List (AdderAction (List EpollEvent)) :=
  [ .write 0x4 2, .read 0x14, .tcpStart, .read 0x4, .tcpTurn [],
    .tcpTurn [EpollEvent.connection (createVpModule .server 3 4).1 5],
    .read 0x4, .write 0x8 20, .write 0xc 22, .read 0x10, .read 0x14, .read 0x0 ]

/-- The sum reads zero. -/
theorem adder_twentyAndTwentyTwo :
    let pipe := vpipcAsPipe connectedClient 3 4
    let run := runOutputs (adderStep pipe) (pipe.realized, zeroCpu) twentyAndTwentyTwo
    let file := RegisterFile.ofAdder pipe.realized
    run.1.map AdderOutput.value =
        [none, some 1, none, some 0, none, none, some 2, none, none, some 0, some 2, some 0] ∧
      run.1.map AdderOutput.irq =
        [true, false, false, false, false, false, false, true, true, true, false, false] ∧
      run.1 = (runOutputs (RegisterFile.step pipe) file twentyAndTwentyTwo).1 ∧
      run.2.2.memory = zeroCpu.memory := by
  have hstarts : StartsBeforeRequests twentyAndTwentyTwo := by
    unfold StartsBeforeRequests
    decide
  obtain ⟨houtputs, -, -, hmemory⟩ := adder_is_registerFile (vpipcAsPipe connectedClient 3 4)
    (reachesDispatch_vpipc rfl 3 4) zeroCpu twentyAndTwentyTwo hstarts
  exact ⟨by decide, by decide, houtputs, hmemory⟩

end Platform
end AislabVP
