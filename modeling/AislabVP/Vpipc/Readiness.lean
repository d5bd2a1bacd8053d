import AislabVP.Foundation.Runs
import AislabVP.Vpipc.Wait
import Mathlib.Logic.Function.Basic

/-!
# Edge-triggered readiness of the client descriptors

`vp_epoll_add` registers an accepted descriptor with `EPOLLIN | EPOLLET`, and
`vp_wait` calls `recv` once for every event.  The kernel's side of that is the
subject here, as Linux documents it: a descriptor added with `EPOLLET` becomes
ready on each arrival (and when it is added with data waiting), and stops being
ready when `epoll_wait` reports it, whatever is left unread; a level-triggered
descriptor is ready while there is something to read.

Each turn of the event loop is `serverEvent` on the outcome that the kernel
state dictates, and the system calls it makes are what changes the kernel
state.  A poll that reports a descriptor with two unread requests takes one of
them and leaves the other on a descriptor that is no longer ready; this is the
only way to strand a request (`noStranded_iff_one_unread_per_poll`).
-/

namespace AislabVP
namespace Vpipc

open Foundation

/-- One TCP connection as the server's kernel holds it: the whole requests
received and not yet read, whether the client has disconnected, and the state
of its `epoll` registration. -/
structure Connection where
  unread : List VpTransferData
  finished : Bool
  edgeTriggered : Bool
  armed : Bool

/-- Whether `epoll_wait` reports the descriptor. -/
def Connection.isReady (connection : Connection) : Bool :=
  if connection.edgeTriggered then connection.armed
  else !connection.unread.isEmpty || connection.finished

/-- A request arrives. -/
def Connection.arrive (connection : Connection) (message : VpTransferData) : Connection :=
  { connection with unread := connection.unread ++ [message], armed := true }

/-- The client disconnects. -/
def Connection.finish (connection : Connection) : Connection :=
  { connection with finished := true, armed := true }

/-- `epoll_wait` reports the descriptor and `recv` takes one request. -/
def Connection.reportAndRead (connection : Connection) : Connection :=
  { connection with unread := connection.unread.tail, armed := false }

/-- `EPOLL_CTL_ADD`: what already waits makes the descriptor ready. -/
def Connection.register (connection : Connection) (edgeTriggered : Bool) : Connection :=
  { connection with
    edgeTriggered := edgeTriggered
    armed := !connection.unread.isEmpty || connection.finished }

/-- The server's record together with the sockets behind it: clients that wait
for `accept`, oldest first, and the accepted descriptors that are open. -/
structure Kernel where
  vpm : VpIpcModule
  backlog : List Connection
  connections : Int → Option Connection

/-- The state after `create_vp_module(MODULE_TYPE_SERVER)`. -/
def Kernel.created (epollFd serverFd : Int) : Kernel where
  vpm := (createVpModule .server epollFd serverFd).1
  backlog := []
  connections := fun _ => none

/-- What a system call of `vp_wait` does to the sockets. -/
def Kernel.applyCall (kernel : Kernel) : SysCall → Kernel
  | .opened fd =>
      match kernel.backlog with
      | [] => kernel
      | connection :: rest =>
          { kernel with
            backlog := rest
            connections := Function.update kernel.connections fd (some connection) }
  | .epollAdd fd edgeTriggered =>
      { kernel with
        connections := Function.update kernel.connections fd
          ((kernel.connections fd).map fun connection =>
            connection.register edgeTriggered) }
  | .closed fd =>
      { kernel with connections := Function.update kernel.connections fd none }

/-- Whether `epoll_wait` may report the descriptor: the listener is level
triggered. -/
def Kernel.reportable (kernel : Kernel) (fd : Int) : Bool :=
  if fd = kernel.vpm.serverFd then !kernel.backlog.isEmpty
  else
    match kernel.connections fd with
    | none => false
    | some connection => connection.isReady

/-- The outcome of `accept` or `recv` on a reported descriptor.  `accept` takes
the oldest waiting client and returns an unused number; `recv` returns the
oldest unread request, or 0 after the client has disconnected, and otherwise
blocks. -/
def Kernel.outcome (kernel : Kernel) (fd unused : Int) : Option EpollEvent :=
  if fd = kernel.vpm.serverFd then
    if kernel.backlog ≠ [] ∧ (kernel.connections unused).isNone ∧
        unused ≠ kernel.vpm.serverFd ∧ unused ≠ -1 then
      some (EpollEvent.connection kernel.vpm unused)
    else none
  else
    match kernel.connections fd with
    | none => none
    | some connection =>
        match connection.unread, connection.finished with
        | message :: _, _ => some (EpollEvent.input fd (.piece (Piece.whole message)))
        | [], true => some (EpollEvent.input fd .closed)
        | [], false => none

/-- The reported descriptor stops being ready and its oldest request is read. -/
def Kernel.consume (kernel : Kernel) (fd : Int) : Kernel :=
  if fd = kernel.vpm.serverFd then kernel
  else
    { kernel with
      connections := Function.update kernel.connections fd
        ((kernel.connections fd).map Connection.reportAndRead) }

/-- One turn of the event loop on a report: the descriptor, and the number that
`accept` would return for it. -/
def Kernel.turn (kernel : Kernel) (report : Int × Int) : Option Kernel :=
  match kernel.outcome report.1 report.2 with
  | none => none
  | some event =>
      let effect := serverEvent kernel.vpm event
      if effect.exited then none
      else
        -- First the kernel's bookkeeping for the report, then the calls of the turn.
        some (effect.calls.foldl Kernel.applyCall
          { kernel.consume report.1 with vpm := effect.vpm })

/-- What can happen between clients and server. -/
inductive NetAction where
  | connect
  | sendWaiting (index : Nat) (message : VpTransferData)
  | disconnectWaiting (index : Nat)
  | send (fd : Int) (message : VpTransferData)
  | disconnect (fd : Int)
  | wait (reports : List (Int × Int))

/-- One action.  A client that has disconnected sends nothing more; `epoll_wait`
reports at most `MAX_EVENTS` distinct descriptors, all of them ready. -/
def Kernel.step (kernel : Kernel) : NetAction → Option Kernel
  | .connect =>
      some { kernel with
        backlog := kernel.backlog ++
          [{ unread := [], finished := false, edgeTriggered := false, armed := false }] }
  -- A client may send and hang up before the server has accepted it.
  | .sendWaiting index message =>
      match kernel.backlog[index]? with
      | none => none
      | some connection =>
          if connection.finished then none
          else some { kernel with
            backlog := kernel.backlog.set index (connection.arrive message) }
  | .disconnectWaiting index =>
      match kernel.backlog[index]? with
      | none => none
      | some connection =>
          some { kernel with backlog := kernel.backlog.set index connection.finish }
  | .send fd message =>
      match kernel.connections fd with
      | none => none
      | some connection =>
          if connection.finished then none
          else some { kernel with
            connections := Function.update kernel.connections fd
              (some (connection.arrive message)) }
  | .disconnect fd =>
      match kernel.connections fd with
      | none => none
      | some connection =>
          some { kernel with
            connections := Function.update kernel.connections fd
              (some connection.finish) }
  | .wait reports =>
      if reports.length ≤ maxEvents ∧ (reports.map Prod.fst).Nodup ∧
          ∀ report ∈ reports, kernel.reportable report.1 = true then
        runFrom Kernel.turn kernel reports
      else none

/-! ## What one turn does -/

/-- The three things a turn of the event loop can do. -/
inductive TurnEffect (kernel : Kernel) (fd unused : Int) (next : Kernel) : Prop
  | accepted (connection : Connection) (rest : List Connection)
      (hserver : fd = kernel.vpm.serverFd)
      (hbacklog : kernel.backlog = connection :: rest)
      (hunused : kernel.connections unused = none)
      (hnext : next =
        { vpm := { kernel.vpm with sockFd := unused }
          backlog := rest
          connections := Function.update kernel.connections unused
            (some (connection.register true)) })
  | read (connection : Connection) (message : VpTransferData)
      (rest : List VpTransferData)
      (hserver : fd ≠ kernel.vpm.serverFd)
      (hopen : kernel.connections fd = some connection)
      (hunread : connection.unread = message :: rest)
      (hnext : next =
        { kernel with
          connections := Function.update kernel.connections fd
            (some connection.reportAndRead) })
  | closed (connection : Connection)
      (hserver : fd ≠ kernel.vpm.serverFd)
      (hopen : kernel.connections fd = some connection)
      (hunread : connection.unread = [])
      (hnext : next =
        { kernel with connections := Function.update kernel.connections fd none })

theorem turn_cases {kernel next : Kernel} {fd unused : Int}
    (hturn : kernel.turn (fd, unused) = some next) :
    TurnEffect kernel fd unused next := by
  unfold Kernel.turn at hturn
  simp only at hturn
  by_cases hserver : fd = kernel.vpm.serverFd
  · rw [Kernel.outcome, if_pos hserver] at hturn
    by_cases hfree : kernel.backlog ≠ [] ∧ (kernel.connections unused).isNone ∧
        unused ≠ kernel.vpm.serverFd ∧ unused ≠ -1
    · rw [if_pos hfree] at hturn
      rcases hfree with ⟨hbacklog, hnone, -, hunset⟩
      cases hlist : kernel.backlog with
      | nil => exact absurd hlist hbacklog
      | cons connection rest =>
          have hunused : kernel.connections unused = none := by simpa using hnone
          refine .accepted connection rest hserver hlist hunused ?_
          simpa [EpollEvent.connection, serverEvent, acceptConnection, openedBy, hunset,
            Kernel.consume, hserver, Kernel.applyCall, hlist, eq_comm] using hturn
    · rw [if_neg hfree] at hturn
      contradiction
  · rw [Kernel.outcome, if_neg hserver] at hturn
    cases hopen : kernel.connections fd with
    | none => simp [hopen] at hturn
    | some connection =>
        cases hunread : connection.unread with
        | nil =>
            cases hfinished : connection.finished with
            | false => simp [hopen, hunread, hfinished] at hturn
            | true =>
                refine .closed connection hserver hopen hunread ?_
                simpa [hopen, hunread, hfinished, EpollEvent.input, serverEvent, hserver,
                  receiveRequest, Kernel.consume, Kernel.applyCall, eq_comm] using hturn
        | cons message rest =>
            refine .read connection message rest hserver hopen hunread ?_
            simpa [hopen, hunread, EpollEvent.input, serverEvent, hserver, receiveRequest,
              Kernel.consume, eq_comm] using hturn

/-- A ready descriptor with an unread request: a poll that reports it delivers
the oldest request, and its client has nothing to do with it. -/
theorem ready_request_is_delivered {kernel : Kernel} {fd : Int} {connection : Connection}
    {message : VpTransferData} {rest : List VpTransferData}
    (hserver : fd ≠ kernel.vpm.serverFd) (hopen : kernel.connections fd = some connection)
    (hready : connection.isReady = true) (hunread : connection.unread = message :: rest) :
    kernel.reportable fd = true ∧
      ∃ event, kernel.outcome fd (-1) = some event ∧
        (serverEvent kernel.vpm event).vpt = [{ sockFd := fd, data := message }] := by
  constructor
  · simp [Kernel.reportable, hserver, hopen, hready]
  · refine ⟨EpollEvent.input fd (.piece (Piece.whole message)), ?_, ?_⟩
    · simp [Kernel.outcome, hserver, hopen, hunread]
    · simp [serverEvent, EpollEvent.input, hserver, receiveRequest]

/-! ## Stranded requests -/

/-- A descriptor that holds an unread request is ready. -/
def NotStranded (entry : Option Connection) : Prop :=
  ∀ connection, entry = some connection →
    connection.unread ≠ [] → connection.isReady = true

/-- Every accepted, open descriptor with an unread request is ready. -/
def NoStranded (kernel : Kernel) : Prop :=
  ∀ fd, NotStranded (kernel.connections fd)

/-- Every accepted descriptor is registered edge-triggered. -/
def AllEdgeTriggered (kernel : Kernel) : Prop :=
  ∀ fd connection, kernel.connections fd = some connection →
    connection.edgeTriggered = true

theorem notStranded_none : NotStranded none := by
  intro connection h
  contradiction

theorem notStranded_register (connection : Connection) :
    NotStranded (some (connection.register true)) := by
  rintro - ⟨rfl⟩ hunread
  have hunread : connection.unread ≠ [] := hunread
  simp [Connection.isReady, Connection.register, hunread]

theorem notStranded_arrive {connection : Connection} (hedge : connection.edgeTriggered = true)
    (message : VpTransferData) : NotStranded (some (connection.arrive message)) := by
  rintro - ⟨rfl⟩ -
  simp [Connection.isReady, Connection.arrive, hedge]

theorem notStranded_finish {connection : Connection} (hedge : connection.edgeTriggered = true) :
    NotStranded (some connection.finish) := by
  rintro - ⟨rfl⟩ -
  simp [Connection.isReady, Connection.finish, hedge]

/-- One `recv` per report leaves nothing behind only when it reads the last
unread request. -/
theorem notStranded_reportAndRead_iff {connection : Connection} {message : VpTransferData}
    {rest : List VpTransferData} (hedge : connection.edgeTriggered = true)
    (hunread : connection.unread = message :: rest) :
    NotStranded (some connection.reportAndRead) ↔ connection.unread.length ≤ 1 := by
  constructor
  · -- What is left behind is not ready, so nothing may be left behind.
    intro hready
    by_contra hmany
    have hrest : rest ≠ [] := by
      intro hnil
      simp [hunread, hnil] at hmany
    have := hready _ rfl (by simpa [Connection.reportAndRead, hunread] using hrest)
    simp [Connection.isReady, Connection.reportAndRead, hedge] at this
  · rintro hone - ⟨rfl⟩ hleft
    rw [hunread, List.length_cons] at hone
    have hrest : rest = [] := List.length_eq_zero_iff.mp (by omega)
    simp [Connection.reportAndRead, hunread, hrest] at hleft

theorem noStranded_update_iff {kernel : Kernel} (fd : Int) (entry : Option Connection)
    (vpm : VpIpcModule) (backlog : List Connection) :
    NoStranded
        { vpm := vpm, backlog := backlog,
          connections := Function.update kernel.connections fd entry } ↔
      NotStranded entry ∧ ∀ other ≠ fd, NotStranded (kernel.connections other) :=
  Function.forall_update_iff kernel.connections fun _ value => NotStranded value

theorem noStranded_iff_at {kernel : Kernel} (fd : Int) :
    NoStranded kernel ↔ NotStranded (kernel.connections fd) ∧
      ∀ other ≠ fd, NotStranded (kernel.connections other) := by
  constructor
  · intro h
    exact ⟨h fd, fun other _ => h other⟩
  · rintro ⟨hfd, hothers⟩ other
    by_cases hother : other = fd
    · rw [hother]
      exact hfd
    · exact hothers other hother

theorem allEdgeTriggered_update {kernel : Kernel} (hedge : AllEdgeTriggered kernel) (fd : Int)
    (entry : Option Connection)
    (hentry : ∀ connection, entry = some connection → connection.edgeTriggered = true)
    (vpm : VpIpcModule) (backlog : List Connection) :
    AllEdgeTriggered
      { vpm := vpm, backlog := backlog,
        connections := Function.update kernel.connections fd entry } := by
  intro other connection hother
  by_cases hfd : other = fd
  · subst hfd
    exact hentry connection (by simpa using hother)
  · exact hedge other connection (by simpa [hfd] using hother)

/-- What a turn keeps: the listener, the registration mode, and every open
descriptor but the reported one. -/
theorem turn_frame {kernel next : Kernel} {fd unused : Int}
    (hedge : AllEdgeTriggered kernel) (hturn : kernel.turn (fd, unused) = some next) :
    next.vpm.serverFd = kernel.vpm.serverFd ∧ AllEdgeTriggered next ∧
      ∀ other connection, other ≠ fd → kernel.connections other = some connection →
        next.connections other = some connection := by
  cases turn_cases hturn with
  | accepted accepted rest _ _ hunused hnext =>
      subst hnext
      refine ⟨rfl, allEdgeTriggered_update hedge unused _ ?_ _ _, ?_⟩
      · rintro - ⟨rfl⟩
        rfl
      · intro other connection _ hother
        have hne : other ≠ unused := by
          rintro rfl
          rw [hunused] at hother
          contradiction
        simpa [hne] using hother
  | read reader message rest _ hopen _ hnext =>
      subst hnext
      refine ⟨rfl, allEdgeTriggered_update hedge fd _ ?_ _ _, ?_⟩
      · rintro - ⟨rfl⟩
        exact hedge fd reader hopen
      · intro other connection hother hconnection
        simpa [hother] using hconnection
  | closed closing _ hopen _ hnext =>
      subst hnext
      refine ⟨rfl, allEdgeTriggered_update hedge fd none (fun _ h => nomatch h) _ _, ?_⟩
      intro other connection hother hconnection
      simpa [hother] using hconnection

/-- At most one unread request on the reported descriptor. -/
def OneUnread (kernel : Kernel) (fd : Int) : Prop :=
  fd ≠ kernel.vpm.serverFd →
    ∀ connection, kernel.connections fd = some connection → connection.unread.length ≤ 1

theorem noStranded_turn_iff {kernel next : Kernel} {fd unused : Int}
    (hedge : AllEdgeTriggered kernel)
    (hready : fd ≠ kernel.vpm.serverFd → kernel.reportable fd = true)
    (hturn : kernel.turn (fd, unused) = some next) :
    NoStranded next ↔ NoStranded kernel ∧ OneUnread kernel fd := by
  cases turn_cases hturn with
  | accepted connection rest hserver _ hunused hnext =>
      subst hnext
      have hone : OneUnread kernel fd := fun hne => absurd hserver hne
      have hnone : NotStranded (kernel.connections unused) := by
        rw [hunused]
        exact notStranded_none
      rw [noStranded_update_iff, noStranded_iff_at unused]
      simp [notStranded_register, hnone, hone]
  | read connection message rest hserver hopen hunread hnext =>
      subst hnext
      have hreported : NotStranded (kernel.connections fd) := by
        have hreportable := hready hserver
        simp only [Kernel.reportable, hserver, if_false, hopen] at hreportable
        intro other hother _
        obtain rfl := Option.some.inj (hopen.symm.trans hother)
        exact hreportable
      have hone : OneUnread kernel fd ↔ connection.unread.length ≤ 1 := by
        simp [OneUnread, hserver, hopen]
      rw [noStranded_update_iff, noStranded_iff_at fd,
        notStranded_reportAndRead_iff (hedge fd connection hopen) hunread, hone]
      simp [hreported, and_comm]
  | closed connection hserver hopen hunread hnext =>
      subst hnext
      have hone : OneUnread kernel fd := by
        simp [OneUnread, hopen, hunread]
      have hreported : NotStranded (kernel.connections fd) := by
        intro other hother hleft
        obtain rfl := Option.some.inj (hopen.symm.trans hother)
        exact absurd hunread hleft
      rw [noStranded_update_iff, noStranded_iff_at fd]
      simp [notStranded_none, hreported, hone]

/-- The reports still to come are untouched by a turn. -/
theorem reportable_after_turn {kernel next : Kernel} {fd unused other : Int}
    (hedge : AllEdgeTriggered kernel) (hturn : kernel.turn (fd, unused) = some next)
    (hother : other ≠ fd) (hclient : other ≠ kernel.vpm.serverFd)
    (hready : kernel.reportable other = true) :
    next.reportable other = true ∧ (OneUnread next other ↔ OneUnread kernel other) := by
  obtain ⟨hserver, -, hkeeps⟩ := turn_frame hedge hturn
  simp only [Kernel.reportable, hclient, if_false] at hready
  cases hopen : kernel.connections other with
  | none => simp [hopen] at hready
  | some connection =>
      have hnext := hkeeps other connection hother hopen
      simp only [hopen] at hready
      constructor
      · simp [Kernel.reportable, hserver, hclient, hnext, hready]
      · simp [OneUnread, hserver, hnext, hopen]

theorem noStranded_turns_iff {kernel next : Kernel} {reports : List (Int × Int)}
    (hedge : AllEdgeTriggered kernel) (hnodup : (reports.map Prod.fst).Nodup)
    (hready : ∀ report ∈ reports, report.1 ≠ kernel.vpm.serverFd →
      kernel.reportable report.1 = true)
    (hrun : runFrom Kernel.turn kernel reports = some next) :
    NoStranded next ↔
      NoStranded kernel ∧ ∀ report ∈ reports, OneUnread kernel report.1 := by
  induction reports generalizing kernel with
  | nil =>
      obtain rfl := Option.some.inj hrun
      simp
  | cons report rest ih =>
      rcases report with ⟨fd, unused⟩
      obtain ⟨middle, hturn, hrest⟩ := runFrom_cons_eq_some.mp hrun
      obtain ⟨hserver, hedgeMiddle, -⟩ := turn_frame hedge hturn
      -- The reports are distinct, so this turn does not touch the later ones.
      rw [List.map_cons, List.nodup_cons] at hnodup
      rcases hnodup with ⟨hfresh, hnodupRest⟩
      have hlater : ∀ report ∈ rest, report.1 ≠ fd := by
        intro report hreport hsame
        exact hfresh (List.mem_map.mpr ⟨report, hreport, hsame⟩)
      have hafter : ∀ report ∈ rest, report.1 ≠ kernel.vpm.serverFd →
          middle.reportable report.1 = true ∧
            (OneUnread middle report.1 ↔ OneUnread kernel report.1) :=
        fun report hreport hclient =>
          reportable_after_turn hedge hturn (hlater report hreport) hclient
            (hready report (List.mem_cons_of_mem _ hreport) hclient)
      have hunread : (∀ report ∈ rest, OneUnread middle report.1) ↔
          ∀ report ∈ rest, OneUnread kernel report.1 := by
        apply forall₂_congr
        intro report hreport
        by_cases hclient : report.1 = kernel.vpm.serverFd
        · exact ⟨fun _ hne => absurd hclient hne,
            fun _ hne => absurd (hclient.trans hserver.symm) hne⟩
        · exact (hafter report hreport hclient).2
      have hfirst := noStranded_turn_iff hedge (hready (fd, unused) List.mem_cons_self) hturn
      rw [ih hedgeMiddle hnodupRest
        (fun report hreport hclient =>
          (hafter report hreport (by rwa [← hserver])).1) hrest, hfirst, hunread]
      simp [and_assoc]

theorem allEdgeTriggered_turns {kernel next : Kernel} {reports : List (Int × Int)}
    (hedge : AllEdgeTriggered kernel)
    (hrun : runFrom Kernel.turn kernel reports = some next) : AllEdgeTriggered next :=
  invariant_reachable (fun _ _ _ hedge hturn => (turn_frame hedge hturn).2.1) hedge
    ⟨reports, hrun⟩

/-! ## Whole runs -/

/-- The polls that strand nothing: no client descriptor is reported that holds
two or more unread requests. -/
def PollsOneUnread (kernel : Kernel) : NetAction → Prop
  | .wait reports => ∀ report ∈ reports, OneUnread kernel report.1
  | .connect | .sendWaiting _ _ | .disconnectWaiting _ | .send _ _ | .disconnect _ => True

/-- The actions of the clients change one connection: one that waits for
`accept`, or an accepted one that becomes ready. -/
theorem client_step_cases {kernel next : Kernel} {action : NetAction}
    (hedge : AllEdgeTriggered kernel) (hclient : ∀ reports, action ≠ .wait reports)
    (hstep : kernel.step action = some next) :
    next.connections = kernel.connections ∨
      ∃ fd connection, connection.edgeTriggered = true ∧ NotStranded (some connection) ∧
        next.connections = Function.update kernel.connections fd (some connection) := by
  cases action with
  | connect =>
      obtain rfl := Option.some.inj hstep
      exact Or.inl rfl
  | sendWaiting index message =>
      simp only [Kernel.step] at hstep
      split at hstep
      · contradiction
      · split at hstep
        · contradiction
        · obtain rfl := Option.some.inj hstep
          exact Or.inl rfl
  | disconnectWaiting index =>
      simp only [Kernel.step] at hstep
      split at hstep
      · contradiction
      · obtain rfl := Option.some.inj hstep
        exact Or.inl rfl
  | send fd message =>
      simp only [Kernel.step] at hstep
      split at hstep
      · contradiction
      · rename_i connection hopen
        have hregistered := hedge fd connection hopen
        split at hstep
        · contradiction
        · obtain rfl := Option.some.inj hstep
          exact Or.inr ⟨fd, connection.arrive message, hregistered,
            notStranded_arrive hregistered message, rfl⟩
  | disconnect fd =>
      simp only [Kernel.step] at hstep
      split at hstep
      · contradiction
      · rename_i connection hopen
        have hregistered := hedge fd connection hopen
        obtain rfl := Option.some.inj hstep
        exact Or.inr ⟨fd, connection.finish, hregistered,
          notStranded_finish hregistered, rfl⟩
  | wait reports => exact absurd rfl (hclient reports)

theorem wait_eq_runFrom {kernel next : Kernel} {reports : List (Int × Int)}
    (hstep : kernel.step (.wait reports) = some next) :
    (reports.map Prod.fst).Nodup ∧
      (∀ report ∈ reports, kernel.reportable report.1 = true) ∧
      runFrom Kernel.turn kernel reports = some next := by
  simp only [Kernel.step] at hstep
  split at hstep
  · rename_i henabled
    exact ⟨henabled.2.1, henabled.2.2, hstep⟩
  · contradiction

theorem allEdgeTriggered_step (kernel : Kernel) (action : NetAction) (next : Kernel)
    (hedge : AllEdgeTriggered kernel) (hstep : kernel.step action = some next) :
    AllEdgeTriggered next := by
  by_cases hpoll : ∃ reports, action = .wait reports
  · rcases hpoll with ⟨reports, rfl⟩
    exact allEdgeTriggered_turns hedge (wait_eq_runFrom hstep).2.2
  · push Not at hpoll
    rcases client_step_cases hedge hpoll hstep with
      hsame | ⟨fd, connection, hregistered, -, hchanged⟩
    · intro other connection hother
      exact hedge other connection (hsame ▸ hother)
    · have hupdated := allEdgeTriggered_update hedge fd (some connection)
        (by
          intro other hother
          obtain rfl := Option.some.inj hother
          exact hregistered) next.vpm next.backlog
      rwa [← hchanged] at hupdated

theorem noStranded_step_iff (kernel : Kernel) (action : NetAction) (next : Kernel)
    (hedge : AllEdgeTriggered kernel) (hnone : NoStranded kernel)
    (hstep : kernel.step action = some next) :
    NoStranded next ↔ PollsOneUnread kernel action := by
  by_cases hpoll : ∃ reports, action = .wait reports
  · rcases hpoll with ⟨reports, rfl⟩
    obtain ⟨hnodup, hready, hrun⟩ := wait_eq_runFrom hstep
    rw [noStranded_turns_iff hedge hnodup (fun report hreport _ => hready report hreport) hrun]
    simp [hnone, PollsOneUnread]
  · push Not at hpoll
    have hguard : PollsOneUnread kernel action := by
      cases action with
      | wait reports => exact absurd rfl (hpoll reports)
      | connect | sendWaiting | disconnectWaiting | send | disconnect => trivial
    simp only [hguard, iff_true]
    rcases client_step_cases hedge hpoll hstep with
      hsame | ⟨fd, connection, -, hready, hchanged⟩
    · intro other
      rw [hsame]
      exact hnone other
    · have hupdated := (noStranded_update_iff fd (some connection) next.vpm
        next.backlog).mpr ⟨hready, fun other _ => hnone other⟩
      rwa [← hchanged] at hupdated

/-- Over any run of clients and server, no request is stranded in any state if
and only if no `vp_wait` call reports a client descriptor with two or more
unread requests. -/
theorem noStranded_iff_one_unread_per_poll (epollFd serverFd : Int)
    (actions : List NetAction) (final : Kernel)
    (hrun : runFrom Kernel.step (Kernel.created epollFd serverFd) actions = some final) :
    HoldsAlong Kernel.step NoStranded (Kernel.created epollFd serverFd) actions ↔
      GuardedRun Kernel.step PollsOneUnread (Kernel.created epollFd serverFd) actions :=
  holdsAlong_iff_guardedRun allEdgeTriggered_step noStranded_step_iff
    (fun _ _ h => nomatch h) (fun _ => notStranded_none) hrun

/-- A DMA write of 4 bytes. -/
def exampleRequest : VpTransferData :=
  { type := VpType.vpWrite.code, length := 4, addr := 0x80000000, data := 1 }

/-- A client connects and is polled after each of its requests. -/
theorem noStranded_polled_after_each_request :
    HoldsAlong Kernel.step NoStranded (Kernel.created 3 4)
      [.connect, .wait [(4, 5)], .send 5 exampleRequest, .wait [(5, -1)],
        .send 5 exampleRequest, .wait [(5, -1)]] := by
  refine (noStranded_iff_one_unread_per_poll 3 4 _ _ rfl).mpr
    (guardedRun_cons trivial rfl (guardedRun_cons ?_ rfl (guardedRun_cons trivial rfl
    (guardedRun_cons ?_ rfl (guardedRun_cons trivial rfl (guardedRun_cons ?_ rfl trivial))))))
  · simp only [PollsOneUnread, List.forall_mem_singleton]
    exact fun hclient => absurd rfl hclient
  · simp only [PollsOneUnread, List.forall_mem_singleton]
    rintro - connection hopen
    cases hopen
    exact le_refl 1
  · simp only [PollsOneUnread, List.forall_mem_singleton]
    rintro - connection hopen
    cases hopen
    exact le_refl 1

/-- Two requests back to back, then a poll: the first is delivered, the second
stays unread on a descriptor that `epoll_wait` no longer reports. -/
theorem second_request_is_stranded :
    ∃ final, runFrom Kernel.step (Kernel.created 3 4)
        [.connect, .wait [(4, 5)], .send 5 exampleRequest, .send 5 exampleRequest,
          .wait [(5, -1)]] = some final ∧
      final.connections 5 = some
        { unread := [exampleRequest], finished := false, edgeTriggered := true,
          armed := false } ∧
      final.reportable 5 = false ∧ ¬NoStranded final := by
  refine ⟨_, rfl, rfl, rfl, fun hnone => ?_⟩
  have hready := hnone 5
    { unread := [exampleRequest], finished := false, edgeTriggered := true, armed := false }
    rfl (List.cons_ne_nil _ _)
  exact absurd hready (by decide)

end Vpipc
end AislabVP
