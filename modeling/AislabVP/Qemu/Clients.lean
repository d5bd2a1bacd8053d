import AislabVP.Qemu.Iteration
import AislabVP.Vpipc.Accounts

/-!
# QEMU and its clients

`mmio_bus_realize` calls `vp_wait` until a client is connected and throws the transfers
of these calls away; from then on `tcp_thread_func` serves.  Any number of clients connect, send
and disconnect meanwhile, and the kernel gives their descriptors out again.

`ServerState.step` runs both loops over the sockets.  Its log says what the server is for its
clients (`ServesClients`):

* what a client has sent is what has been read from it, in order, and what lies unread in
  its socket; the loop of `mmio_bus_realize` loses nothing;
* there is one order of all requests read in which the thread has served them, one
  after the other;
* each answer goes to the client that asked, whatever descriptors have been reused;
* an action has a next state unless it is a poll that reads more whole requests than `vpt[3]`
  holds, or one whose copy is longer than `value` or meets the device's own window
  (`Servable`).

No vCPU is in a callback here: the `recv` of `vp_b_transfer` would take what a client sent
from the same descriptor.  The interleaving of the callbacks with the poll is in
`Platform`.
-/

namespace AislabVP
namespace Qemu

open Foundation Vpipc

/-- The two loops of `mmio_bus.c`. -/
inductive ServicePhase where
  | realizing
  | serving
  deriving DecidableEq, Repr

/-- What has happened: the messages the clients sent, those that the thread was given, and its
answers, each with the client at the other end. -/
structure ServerLog where
  asked : List (Option Nat × VpTransferData)
  taken : List (Option Nat × VpTransfer)
  replied : List (Option Nat × VpTransfer)

/-- QEMU with its sockets. -/
structure ServerState (Guest : Type*) where
  phase : ServicePhase
  sockets : Sockets
  thread : TcpThread Guest
  log : ServerLog

/-- `mmio_bus_realize` has created the module. -/
def ServerState.created {Guest : Type*} (epollFd serverFd : Int) (thread : TcpThread Guest) :
    ServerState Guest where
  phase := .realizing
  sockets :=
    { kernel := Kernel.created epollFd serverFd
      roster := { born := 0, waiting := [], holder := fun _ => none } }
  thread := thread
  log := { asked := [], taken := [], replied := [] }

section Server

variable {Guest : Type*} (mem : PhysicalMemory Guest)

/-- One turn of the loop the code is in: `vp_wait` has found the batch, and `sockets` are the
sockets after it. -/
def ServerState.loopTurn (s : ServerState Guest) (reports : List (Int × Int)) (sockets : Sockets) :
    Option (ServerState Guest) :=
  let events := batchOf s.sockets.kernel reports
  match s.phase with
  | .realizing =>
      let wait := vpWait .qemu s.sockets.kernel.vpm (some events)
      if wait.exited ∨ callerArrayLength < wait.vpt.length then none
      else
        -- `while (!client_is_connect(s->vpm))`; nobody looks at `vpt`.
        some { s with
          phase := if clientIsConnect wait.vpm then .serving else .realizing
          sockets := sockets }
  | .serving =>
      match iteration mem s.sockets.kernel.vpm s.thread events with
      | none => none
      | some (_, thread, sent) =>
          some { s with
            sockets := sockets
            thread := thread
            log := { s.log with
              taken := s.log.taken ++ historyFrom Sockets.turn Sockets.reads s.sockets reports
              replied := s.log.replied ++
                sent.map fun response => (sockets.roster.holder response.sockFd, response) } }

/-- One action of the system. -/
def ServerState.step (s : ServerState Guest) (action : NetAction) : Option (ServerState Guest) :=
  match s.sockets.step action with
  | none => none
  | some sockets =>
      match action with
      | .wait reports => s.loopTurn mem reports sockets
      | action =>
          some { s with
            sockets := sockets
            log := { s.log with asked := s.log.asked ++ s.sockets.asks action } }

end Server

/-- The code comes back from an action: a poll reads no more whole requests than the caller's array
holds, and all their copies come back. -/
def Servable (s : Sockets) (action : NetAction) : Prop :=
  ∀ reports, action = .wait reports →
    (historyFrom Sockets.turn Sockets.reads s reports).length ≤ callerArrayLength ∧
      ∀ entry ∈ historyFrom Sockets.turn Sockets.reads s reports, CopyReturns entry.2

/-- What the server is for its clients. -/
structure ServesClients {Guest : Type*} (mem : PhysicalMemory Guest) (start : TcpThread Guest)
    (s : ServerState Guest) : Prop where
  received : ∀ client, ∃ unread, s.sockets.Unread client unread ∧
    entriesOf client s.log.asked =
      (entriesOf client s.log.taken).map VpTransfer.data ++ unread
  inOrder : start.serveBatch mem (s.log.taken.map Prod.snd) =
    some (s.thread, s.log.replied.map Prod.snd)
  toSender : s.log.replied.map Prod.fst = s.log.taken.map Prod.fst
  known : ∀ entry ∈ s.log.taken, entry.1.isSome
  goesOn : ∀ action sockets, s.sockets.step action = some sockets →
    ((∃ next, s.step mem action = some next) ↔ Servable s.sockets action)

/-! ## The two loops -/

section Loops

variable {Guest : Type*} {mem : PhysicalMemory Guest} {start : TcpThread Guest}
variable {s next : ServerState Guest}

/-- The invariant of the server. -/
structure ServerState.Correct (mem : PhysicalMemory Guest) (start : TcpThread Guest)
    (s : ServerState Guest) : Prop where
  sound : s.sockets.Sound
  accounts : Accounts s.sockets s.log.asked s.log.taken
  server : s.sockets.kernel.vpm.type = .server
  inOrder : start.serveBatch mem (s.log.taken.map Prod.snd) =
    some (s.thread, s.log.replied.map Prod.snd)
  toSender : s.log.replied.map Prod.fst = s.log.taken.map Prod.fst
  known : ∀ entry ∈ s.log.taken, entry.1.isSome
  -- Before the first client nothing has been accepted.
  realizing : s.phase = .realizing →
    (∀ fd, s.sockets.kernel.connections fd = none) ∧ s.sockets.kernel.vpm.sockFd = -1

theorem correct_created (epollFd serverFd : Int) (thread : TcpThread Guest) :
    (ServerState.created epollFd serverFd thread).Correct mem thread where
  sound :=
    { queued := rfl
      held := fun fd => ⟨fun _ => rfl, fun _ => rfl⟩
      distinct := List.nodup_nil
      apart := by simp [ServerState.created]
      injective := by simp [ServerState.created]
      bornWaiting := by simp [ServerState.created]
      bornHeld := by simp [ServerState.created] }
  accounts :=
    { balance := by
        intro client unread hunread
        cases hunread with
        | waiting index connection hwaits _ => simp [ServerState.created] at hwaits
        | accepted fd connection hheld _ => simp [ServerState.created] at hheld
        | gone _ _ => rfl
      unborn := fun _ _ => rfl }
  server := rfl
  inOrder := rfl
  toSender := rfl
  known := by simp [ServerState.created]
  realizing := fun _ => ⟨fun _ => rfl, rfl⟩

/-- Only the listener is reported while nothing has been accepted, and it is reported once. -/
theorem reports_of_no_connections {kernel final : Kernel} {reports : List (Int × Int)}
    (hnone : ∀ fd, kernel.connections fd = none)
    (hstep : kernel.step (.wait reports) = some final) :
    reports = [] ∨ ∃ unused, reports = [(kernel.vpm.serverFd, unused)] := by
  obtain ⟨hnodup, hready, -⟩ := wait_eq_runFrom hstep
  have hserver : ∀ report ∈ reports, report.1 = kernel.vpm.serverFd := by
    intro report hreport
    by_contra hclient
    have hreportable := hready report hreport
    simp [Kernel.reportable, hclient, hnone report.1] at hreportable
  cases reports with
  | nil => exact Or.inl rfl
  | cons report rest =>
      rw [List.forall_mem_cons] at hserver
      cases rest with
      | nil =>
          rw [← hserver.1]
          exact Or.inr ⟨report.2, rfl⟩
      | cons second rest =>
          rw [List.forall_mem_cons] at hserver
          simp [hserver.1, hserver.2.1] at hnodup

/-- `accept` does not return the value that stands for "not connected". -/
theorem accepted_ne_unset {kernel next : Kernel} {unused : Int}
    (hturn : kernel.turn (kernel.vpm.serverFd, unused) = some next) : unused ≠ -1 := by
  unfold Kernel.turn at hturn
  simp only [Kernel.outcome, if_true] at hturn
  by_cases hfree : kernel.backlog ≠ [] ∧ (kernel.connections unused).isNone ∧
      unused ≠ kernel.vpm.serverFd ∧ unused ≠ -1
  · exact hfree.2.2.2
  · rw [if_neg hfree] at hturn
    cases hturn

/-- Whatever the loop over `vpt` sends are answers. -/
theorem answers_of_serveBatch {thread final : TcpThread Guest} {requests sent : List VpTransfer}
    (hbatch : thread.serveBatch mem requests = some (final, sent)) :
    List.Forall₂ Answers requests sent := by
  induction requests generalizing thread sent with
  | nil =>
      obtain ⟨rfl, rfl⟩ := Prod.mk.inj (Option.some.inj hbatch)
      exact .nil
  | cons request rest ih =>
      rw [TcpThread.serveBatch] at hbatch
      cases hserve : thread.serve mem request with
      | none => simp [hserve] at hbatch
      | some middle =>
          simp only [hserve] at hbatch
          cases hrest : middle.serveBatch mem rest with
          | none => simp [hrest] at hbatch
          | some result =>
              rw [hrest] at hbatch
              obtain ⟨rfl, rfl⟩ := Prod.mk.inj (Option.some.inj hbatch)
              exact .cons (answers_of_serve hserve) (ih hrest)

/-- Answers go where the requests came from. -/
theorem holders_of_answers {holder : Int → Option Nat}
    {entries : List (Option Nat × VpTransfer)} {sent : List VpTransfer}
    (hentries : ∀ entry ∈ entries, holder entry.2.sockFd = entry.1)
    (hanswers : List.Forall₂ Answers (entries.map Prod.snd) sent) :
    sent.map (fun response => holder response.sockFd) = entries.map Prod.fst := by
  induction entries generalizing sent with
  | nil =>
      cases hanswers
      rfl
  | cons entry rest ih =>
      rw [List.forall_mem_cons] at hentries
      cases hanswers with
      | cons hfirst hrest =>
          rw [List.map_cons, List.map_cons, hfirst.1, hentries.1, ih hentries.2 hrest]

theorem sockets_wait {s next : Sockets} {reports : List (Int × Int)}
    (hstep : s.step (.wait reports) = some next) :
    (∃ final, s.kernel.step (.wait reports) = some final) ∧
      runFrom Sockets.turn s reports = some next := by
  rw [Sockets.step] at hstep
  split at hstep
  · rename_i henabled
    exact ⟨Option.isSome_iff_exists.mp henabled, hstep⟩
  · cases hstep

/-- `mmio_bus_realize` reads no request: what it throws away is nothing. -/
theorem reads_realizing {s next : Sockets} {final : Kernel} {reports : List (Int × Int)}
    (h : s.Sound) (hnone : ∀ fd, s.kernel.connections fd = none)
    (henabled : s.kernel.step (.wait reports) = some final)
    (hrun : runFrom Sockets.turn s reports = some next) :
    historyFrom Sockets.turn Sockets.reads s reports = [] ∧
      (next = s ∨ next.kernel.vpm.sockFd ≠ -1) := by
  rcases reports_of_no_connections hnone henabled with rfl | ⟨unused, rfl⟩
  · obtain rfl := Option.some.inj hrun
    exact ⟨rfl, Or.inl rfl⟩
  · obtain ⟨middle, hturn, hrest⟩ := runFrom_cons_eq_some.mp hrun
    obtain rfl := Option.some.inj hrest
    rw [historyFrom, hturn]
    have hunset : unused ≠ -1 := by
      unfold Sockets.turn at hturn
      split at hturn
      · cases hturn
      · rename_i kernel hkernel
        exact accepted_ne_unset hkernel
    cases sockets_turn_cases h hturn with
    | accepted _ _ _ _ _ _ _ _ hkernel _ hreads =>
        refine ⟨by rw [hreads]; rfl, Or.inr ?_⟩
        rw [hkernel]
        exact hunset
    | read _ _ _ _ hserver _ _ _ _ _ _ => exact absurd rfl hserver
    | closed _ _ hserver _ _ _ _ _ _ => exact absurd rfl hserver

/-- An iteration of `tcp_thread_func` on what the sockets have for it. -/
theorem iteration_batchOf (h : s.Correct mem start) {reports : List (Int × Int)}
    {sockets : Sockets} (hrun : runFrom Sockets.turn s.sockets reports = some sockets) :
    iteration mem s.sockets.kernel.vpm s.thread (batchOf s.sockets.kernel reports) =
      if callerArrayLength < (historyFrom Sockets.turn Sockets.reads s.sockets reports).length
      then none
      else (s.thread.serveBatch mem
        ((historyFrom Sockets.turn Sockets.reads s.sockets reports).map Prod.snd)).map
          fun result => (sockets.kernel.vpm, result) := by
  obtain ⟨hexited, hvpm, hvpt⟩ := serverLoop_batchOf hrun
  simp only [iteration, vpWait_of_server .qemu h.server, hexited, hvpm, hvpt, List.length_map,
    Bool.false_eq_true, false_or]

/-- A turn of the loop of `mmio_bus_realize` reads nothing and comes back. -/
theorem loopTurn_realizing (h : s.Correct mem start) (hphase : s.phase = .realizing)
    {reports : List (Int × Int)} {sockets : Sockets}
    (hsockets : s.sockets.step (.wait reports) = some sockets) :
    historyFrom Sockets.turn Sockets.reads s.sockets reports = [] ∧
      (sockets = s.sockets ∨ sockets.kernel.vpm.sockFd ≠ -1) ∧
      s.loopTurn mem reports sockets = some { s with
        phase := if clientIsConnect sockets.kernel.vpm then .serving else .realizing
        sockets := sockets } := by
  obtain ⟨⟨final, henabled⟩, hrun⟩ := sockets_wait hsockets
  obtain ⟨hexited, hvpm, hvpt⟩ := serverLoop_batchOf hrun
  obtain ⟨hnone, -⟩ := h.realizing hphase
  obtain ⟨hreads, hnext⟩ := reads_realizing h.sound hnone henabled hrun
  refine ⟨hreads, hnext, ?_⟩
  unfold ServerState.loopTurn
  simp only [hphase, vpWait_of_server .qemu h.server, hexited, hvpt, hreads, hvpm]
  simp only [List.map_nil, List.length_nil, Bool.false_eq_true, false_or, Nat.not_lt_zero,
    if_false]

/-- A turn of the loop of `tcp_thread_func` comes back when the poll is servable. -/
theorem loopTurn_serving_iff (h : s.Correct mem start) (hphase : s.phase = .serving)
    {reports : List (Int × Int)} {sockets : Sockets}
    (hrun : runFrom Sockets.turn s.sockets reports = some sockets) :
    (∃ next, s.loopTurn mem reports sockets = some next) ↔
      Servable s.sockets (.wait reports) := by
  have hcopies := serveBatch_answers_iff mem s.thread
    ((historyFrom Sockets.turn Sockets.reads s.sockets reports).map Prod.snd)
  rw [List.forall_mem_map] at hcopies
  have hservable : Servable s.sockets (.wait reports) ↔
      (historyFrom Sockets.turn Sockets.reads s.sockets reports).length ≤ callerArrayLength ∧
        ∀ entry ∈ historyFrom Sockets.turn Sockets.reads s.sockets reports,
          CopyReturns entry.2 := by
    constructor
    · exact fun hall => hall reports rfl
    · rintro hreports _ ⟨⟩
      exact hreports
  unfold ServerState.loopTurn
  simp only [hphase, iteration_batchOf h hrun]
  rw [hservable, ← hcopies]
  by_cases hroom : callerArrayLength <
      (historyFrom Sockets.turn Sockets.reads s.sockets reports).length
  · rw [if_pos hroom]
    exact iff_of_false nofun fun hboth => absurd hboth.1 (Nat.not_le.mpr hroom)
  · rw [if_neg hroom]
    constructor
    · intro hnext
      refine ⟨Nat.not_lt.mp hroom, ?_⟩
      cases hbatch : s.thread.serveBatch mem
          ((historyFrom Sockets.turn Sockets.reads s.sockets reports).map Prod.snd) with
      | none => simp [hbatch] at hnext
      | some result => exact ⟨result.1, result.2, rfl, answers_of_serveBatch hbatch⟩
    · rintro ⟨-, thread, sent, hbatch, -⟩
      rw [hbatch]
      exact ⟨_, rfl⟩

/-- A turn of either loop. -/
theorem correct_loopTurn {reports : List (Int × Int)} {sockets : Sockets}
    (h : s.Correct mem start) (hsockets : s.sockets.step (.wait reports) = some sockets)
    (hturn : s.loopTurn mem reports sockets = some next) : next.Correct mem start := by
  obtain ⟨⟨final, henabled⟩, hrun⟩ := sockets_wait hsockets
  obtain ⟨hsound, haccounts⟩ := accounts_turns h.sound h.accounts hrun
  have hserver : sockets.kernel.vpm.type = .server := by
    rw [← (serverLoop_batchOf hrun).2.1, (serverLoop_record _ _).1]
    exact h.server
  cases hphase : s.phase with
  | realizing =>
      obtain ⟨hnone, hunset⟩ := h.realizing hphase
      obtain ⟨hreads, hnext, hback⟩ := loopTurn_realizing h hphase hsockets
      rw [hback, Option.some.injEq] at hturn
      subst hturn
      rw [hreads, List.append_nil] at haccounts
      refine ⟨hsound, haccounts, hserver, h.inOrder, h.toSender, h.known, ?_⟩
      intro hrealizing
      rcases hnext with rfl | hset
      · exact ⟨hnone, hunset⟩
      · have hconnected : clientIsConnect sockets.kernel.vpm = true := by
          simp [clientIsConnect, hset]
        simp [hconnected] at hrealizing
  | serving =>
      unfold ServerState.loopTurn at hturn
      simp only [hphase] at hturn
      cases hiteration : iteration mem s.sockets.kernel.vpm s.thread
          (batchOf s.sockets.kernel reports) with
      | none => simp [hiteration] at hturn
      | some result =>
          obtain ⟨vpm, thread, sent⟩ := result
          simp only [hiteration, Option.some.injEq] at hturn
          subst hturn
          rw [iteration_batchOf h hrun] at hiteration
          split at hiteration
          · cases hiteration
          · obtain ⟨served, hbatch, hserved⟩ := Option.map_eq_some_iff.mp hiteration
            obtain ⟨-, rfl⟩ := Prod.mk.inj hserved
            have hheld : ∀ entry ∈ historyFrom Sockets.turn Sockets.reads s.sockets reports,
                entry.1.isSome ∧ sockets.roster.holder entry.2.sockFd = entry.1 :=
              fun entry hentry => reads_holder h.sound (wait_eq_runFrom henabled).1 hrun hentry
            refine ⟨hsound, haccounts, hserver, ?_, ?_, ?_, ?_⟩
            · rw [List.map_append, serveBatch_append, h.inOrder]
              simp [hbatch, Function.comp_def]
            · rw [List.map_append, List.map_append, h.toSender, List.map_map]
              exact congrArg _ (holders_of_answers (fun entry hentry => (hheld entry hentry).2)
                (answers_of_serveBatch hbatch))
            · intro entry hentry
              rcases List.mem_append.mp hentry with hbefore | hnew
              · exact h.known entry hbefore
              · exact (hheld entry hnew).1
            · intro hrealizing
              cases hrealizing

/-- The invariant is kept by every action. -/
theorem correct_step (s : ServerState Guest) (action : NetAction) (next : ServerState Guest)
    (h : s.Correct mem start) (hstep : s.step mem action = some next) :
    next.Correct mem start := by
  unfold ServerState.step at hstep
  cases hsockets : s.sockets.step action with
  | none => simp [hsockets] at hstep
  | some sockets =>
      simp only [hsockets] at hstep
      by_cases hpoll : ∃ reports, action = .wait reports
      · obtain ⟨reports, rfl⟩ := hpoll
        exact correct_loopTurn h hsockets hstep
      · push Not at hpoll
        obtain ⟨hsound, haccounts⟩ := accounts_client h.sound h.accounts hpoll hsockets
        obtain ⟨hvpm, hclosed⟩ := kernel_of_client hpoll hsockets
        have hnext : next =
            { s with
              sockets := sockets
              log := { s.log with asked := s.log.asked ++ s.sockets.asks action } } := by
          cases action with
          | wait reports => exact absurd rfl (hpoll reports)
          | connect | sendWaiting | disconnectWaiting | send | disconnect =>
              exact (Option.some.inj hstep).symm
        subst hnext
        refine ⟨hsound, haccounts, ?_, h.inOrder, h.toSender, h.known, fun hrealizing => ?_⟩
        · rw [hvpm]
          exact h.server
        · obtain ⟨hnone, hunset⟩ := h.realizing hrealizing
          exact ⟨hclosed hnone, by rw [hvpm]; exact hunset⟩

/-- Which actions come back. -/
theorem step_comesBack_iff (h : s.Correct mem start) {action : NetAction} {sockets : Sockets}
    (hsockets : s.sockets.step action = some sockets) :
    (∃ next, s.step mem action = some next) ↔ Servable s.sockets action := by
  unfold ServerState.step
  simp only [hsockets]
  cases action with
  | wait reports =>
      cases hphase : s.phase with
      | realizing =>
          obtain ⟨hreads, -, hback⟩ := loopTurn_realizing h hphase hsockets
          refine iff_of_true ⟨_, hback⟩ ?_
          rintro _ ⟨⟩
          rw [hreads]
          exact ⟨Nat.zero_le _, nofun⟩
      | serving => exact loopTurn_serving_iff h hphase (sockets_wait hsockets).2
  | connect | sendWaiting | disconnectWaiting | send | disconnect =>
      exact iff_of_true ⟨_, rfl⟩ nofun

end Loops

/-- In every run of QEMU's server while no vCPU is in a callback, with any number of clients and
whatever they do, each client is served in the order in which it sent, and gets the answers to
its own requests and no others; the run can go on with every action but a poll that is not
servable. -/
theorem servesClients_of_run {Guest : Type*} (mem : PhysicalMemory Guest)
    (epollFd serverFd : Int) (thread : TcpThread Guest) (actions : List NetAction)
    (s : ServerState Guest)
    (hrun : runFrom (ServerState.step mem) (ServerState.created epollFd serverFd thread) actions =
      some s) :
    ServesClients mem thread s := by
  have h : s.Correct mem thread :=
    invariant_reachable correct_step (correct_created epollFd serverFd thread) ⟨actions, hrun⟩
  refine ⟨fun client => ?_, h.inOrder, h.toSender, h.known, fun _ _ => step_comesBack_iff h⟩
  obtain ⟨unread, hunread⟩ := h.sound.exists_unread client
  exact ⟨unread, hunread, h.accounts.balance client unread hunread⟩

/-- A request to set the line. -/
def irqRequest (level : BitVec 64) : VpTransferData where
  type := VpType.vpRaiseIrq.code
  length := 0
  addr := 0
  data := level

/-- Two clients, the second of which gets the descriptor of the first. -/
def twoClients : List NetAction :=
  [ .connect, .sendWaiting 0 (irqRequest 1), .wait [(4, 5)], .wait [(5, -1)], .disconnect 5,
    .wait [(5, -1)], .connect, .wait [(4, 5)], .send 5 (irqRequest 0), .send 5 (irqRequest 1),
    .wait [(5, -1)] ]

/-- Descriptor 5 carries the answers of both; the second request of the later client waits. -/
theorem servesClients_twoClients :
    ∃ s, runFrom (ServerState.step plainMemory) (ServerState.created 3 4 idleThread) twoClients =
        some s ∧
      s.log.replied.map (fun entry => (entry.1, entry.2.sockFd)) = [(some 0, 5), (some 1, 5)] ∧
      s.sockets.Unread 1 [irqRequest 1] ∧ ServesClients plainMemory idleThread s :=
  ⟨_, rfl, rfl,
    .accepted 5
      { unread := [irqRequest 1], finished := false, edgeTriggered := true, armed := false }
      rfl rfl,
    servesClients_of_run plainMemory 3 4 idleThread twoClients _ rfl⟩

end Qemu
end AislabVP
