import AislabVP.Foundation.AtomicObject
import AislabVP.Vpipc.CallerArray
import Mathlib.Data.List.Nodup

/-!
# Who is at the other end

`vp_wait` hands a request to its caller together with a descriptor, and `vp_nb_response`
answers on that descriptor.  Descriptors are numbers that the kernel gives out again after a
`close`, so the number alone does not say who has asked.

`Sockets` is the kernel of the readiness model together with what no process sees: which client
stands behind a socket (`Roster`).  The roster names every socket and no two alike
(`sound_turn`), and when a batch has been read, the descriptor of each request still belongs to
the client that sent it (`reads_holder`), since a batch reports no descriptor twice and
`accept` returns a number that is not in use.
-/

namespace AislabVP
namespace Vpipc

open Foundation

/-- Who stands behind the sockets.  Clients are numbered as they connect. -/
structure Roster where
  born : Nat
  waiting : List Nat
  holder : Int → Option Nat

/-- The sockets of the server and their clients. -/
structure Sockets where
  kernel : Kernel
  roster : Roster

/-- The roster after a turn of the event loop: `accept` takes the oldest client, and a
descriptor with nothing to read has been closed. -/
def Roster.turn (roster : Roster) (kernel : Kernel) (report : Int × Int) : Roster :=
  if report.1 = kernel.vpm.serverFd then
    { roster with
      waiting := roster.waiting.tail
      holder := Function.update roster.holder report.2 roster.waiting.head? }
  else
    match kernel.connections report.1 with
    | none => roster
    | some connection =>
        if connection.unread = [] then
          { roster with holder := Function.update roster.holder report.1 none }
        else roster

/-- A turn of the event loop. -/
def Sockets.turn (s : Sockets) (report : Int × Int) : Option Sockets :=
  match s.kernel.turn report with
  | none => none
  | some kernel => some { kernel := kernel, roster := s.roster.turn s.kernel report }

/-- What the turn stores in `vpt`, with the client that sent it. -/
def Sockets.reads (s : Sockets) (report : Int × Int) : List (Option Nat × VpTransfer) :=
  match s.kernel.outcome report.1 report.2 with
  | none => []
  | some event =>
      (event.wholeRequest s.kernel.vpm.serverFd).toList.map fun request =>
        (s.roster.holder report.1, request)

/-- The batch that `vp_wait` finds when it looks at the reports one after the other. -/
def batchOf (kernel : Kernel) (reports : List (Int × Int)) : List EpollEvent :=
  historyFrom Kernel.turn (fun kernel report => (kernel.outcome report.1 report.2).toList)
    kernel reports

/-! ## The roster is right -/

/-- The roster names every socket, and no two of them alike. -/
structure Sockets.Sound (s : Sockets) : Prop where
  queued : s.kernel.backlog.length = s.roster.waiting.length
  held : ∀ fd, s.kernel.connections fd = none ↔ s.roster.holder fd = none
  distinct : s.roster.waiting.Nodup
  apart : ∀ fd client, s.roster.holder fd = some client → client ∉ s.roster.waiting
  injective : ∀ fd other client, s.roster.holder fd = some client →
    s.roster.holder other = some client → fd = other
  bornWaiting : ∀ client ∈ s.roster.waiting, client < s.roster.born
  bornHeld : ∀ fd client, s.roster.holder fd = some client → client < s.roster.born

/-- The three things a turn of the event loop can do, with the client it does them for. -/
inductive SocketsTurn (s : Sockets) (report : Int × Int) (next : Sockets) : Prop
  | accepted (client : Nat) (connection : Connection) (waiting : List Nat)
      (backlog : List Connection) (hserver : report.1 = s.kernel.vpm.serverFd)
      (hwaiting : s.roster.waiting = client :: waiting)
      (hbacklog : s.kernel.backlog = connection :: backlog)
      (hfree : s.kernel.connections report.2 = none)
      (hkernel : next.kernel =
        { vpm := { s.kernel.vpm with sockFd := report.2 }
          backlog := backlog
          connections := Function.update s.kernel.connections report.2
            (some (connection.register true)) })
      (hroster : next.roster =
        { s.roster with
          waiting := waiting
          holder := Function.update s.roster.holder report.2 (some client) })
      (hreads : s.reads report = [])
  | read (client : Nat) (connection : Connection) (message : VpTransferData)
      (rest : List VpTransferData) (hserver : report.1 ≠ s.kernel.vpm.serverFd)
      (hclient : s.roster.holder report.1 = some client)
      (hopen : s.kernel.connections report.1 = some connection)
      (hunread : connection.unread = message :: rest)
      (hkernel : next.kernel =
        { s.kernel with
          connections := Function.update s.kernel.connections report.1
            (some connection.reportAndRead) })
      (hroster : next.roster = s.roster)
      (hreads : s.reads report = [(some client, { sockFd := report.1, data := message })])
  | closed (client : Nat) (connection : Connection) (hserver : report.1 ≠ s.kernel.vpm.serverFd)
      (hclient : s.roster.holder report.1 = some client)
      (hopen : s.kernel.connections report.1 = some connection)
      (hunread : connection.unread = [])
      (hkernel : next.kernel =
        { s.kernel with connections := Function.update s.kernel.connections report.1 none })
      (hroster : next.roster =
        { s.roster with holder := Function.update s.roster.holder report.1 none })
      (hreads : s.reads report = [])

/-- An open descriptor has a holder. -/
theorem Sockets.Sound.holder_of_open {s : Sockets} (h : s.Sound) {fd : Int}
    {connection : Connection} (hopen : s.kernel.connections fd = some connection) :
    ∃ client, s.roster.holder fd = some client := by
  rw [← Option.ne_none_iff_exists', Ne, ← h.held fd, hopen]
  exact nofun

theorem sockets_turn_cases {s next : Sockets} {report : Int × Int} (h : s.Sound)
    (hturn : s.turn report = some next) : SocketsTurn s report next := by
  unfold Sockets.turn at hturn
  cases hkernel : s.kernel.turn report with
  | none => simp [hkernel] at hturn
  | some kernel =>
      simp only [hkernel, Option.some.injEq] at hturn
      subst hturn
      obtain ⟨fd, unused⟩ := report
      cases turn_cases hkernel with
      | accepted connection rest hserver hbacklog hunused hnext =>
          have hqueued := h.queued
          rw [hbacklog, List.length_cons] at hqueued
          obtain ⟨client, waiting, hwaiting⟩ := List.exists_cons_of_length_eq_add_one hqueued.symm
          refine .accepted client connection waiting rest hserver hwaiting hbacklog hunused hnext
            ?_ ?_
          · simp [Roster.turn, hserver, hwaiting]
          · unfold Sockets.reads
            simp only [Kernel.outcome, if_pos hserver]
            split
            · rfl
            · rename_i event hevent
              split at hevent
              · obtain rfl := Option.some.inj hevent
                simp [EpollEvent.connection, EpollEvent.wholeRequest]
              · cases hevent
      | read connection message rest hserver hopen hunread hnext =>
          obtain ⟨client, hclient⟩ := h.holder_of_open hopen
          refine .read client connection message rest hserver hclient hopen hunread hnext ?_ ?_
          · simp [Roster.turn, hserver, hopen, hunread]
          · simp [Sockets.reads, Kernel.outcome, hserver, hopen, hunread, EpollEvent.input,
              EpollEvent.wholeRequest, Piece.whole, hclient]
      | closed connection hserver hopen hunread hnext =>
          obtain ⟨client, hclient⟩ := h.holder_of_open hopen
          refine .closed client connection hserver hclient hopen hunread hnext ?_ ?_
          · simp [Roster.turn, hserver, hopen, hunread]
          · unfold Sockets.reads
            simp only [Kernel.outcome, if_neg hserver, hopen, hunread]
            cases connection.finished with
            | false => rfl
            | true => simp [EpollEvent.input, EpollEvent.wholeRequest, hserver]

/-- The roster stays right. -/
theorem sound_turn {s next : Sockets} {report : Int × Int} (h : s.Sound)
    (hturn : s.turn report = some next) : next.Sound := by
  cases sockets_turn_cases h hturn with
  | accepted client connection waiting backlog _ hwaiting hbacklog hfree hkernel hroster _ =>
      have hdistinct := h.distinct
      rw [hwaiting, List.nodup_cons] at hdistinct
      have hfresh : ∀ fd, s.roster.holder fd ≠ some client := fun fd hheld =>
        h.apart fd client hheld (by rw [hwaiting]; exact List.mem_cons_self)
      constructor
      · rw [hkernel, hroster]
        have hqueued := h.queued
        rw [hbacklog, hwaiting] at hqueued
        exact Nat.succ.inj hqueued
      · intro fd
        rw [hkernel, hroster]
        by_cases hfd : fd = report.2
        · simp [hfd]
        · simpa [hfd] using h.held fd
      · rw [hroster]
        exact hdistinct.2
      · intro fd other hheld
        rw [hroster] at hheld ⊢
        by_cases hfd : fd = report.2
        · obtain rfl : client = other := by simpa [hfd] using hheld
          exact hdistinct.1
        · have hbefore := h.apart fd other (by simpa [hfd] using hheld)
          rw [hwaiting] at hbefore
          exact fun hmem => hbefore (List.mem_cons_of_mem _ hmem)
      · intro fd fd' other hheld hheld'
        rw [hroster] at hheld hheld'
        by_cases hfd : fd = report.2
        · obtain rfl : client = other := by simpa [hfd] using hheld
          by_cases hfd' : fd' = report.2
          · exact hfd.trans hfd'.symm
          · exact absurd (by simpa [hfd'] using hheld') (hfresh fd')
        · by_cases hfd' : fd' = report.2
          · obtain rfl : client = other := by simpa [hfd'] using hheld'
            exact absurd (by simpa [hfd] using hheld) (hfresh fd)
          · exact h.injective fd fd' other (by simpa [hfd] using hheld)
              (by simpa [hfd'] using hheld')
      · intro other hmem
        rw [hroster] at hmem ⊢
        exact h.bornWaiting other (by rw [hwaiting]; exact List.mem_cons_of_mem _ hmem)
      · intro fd other hheld
        rw [hroster] at hheld ⊢
        by_cases hfd : fd = report.2
        · obtain rfl : client = other := by simpa [hfd] using hheld
          exact h.bornWaiting client (by rw [hwaiting]; exact List.mem_cons_self)
        · exact h.bornHeld fd other (by simpa [hfd] using hheld)
  | read client connection message rest _ hclient hopen _ hkernel hroster _ =>
      refine ⟨?_, ?_, ?_, ?_, ?_, ?_, ?_⟩
      · rw [hkernel, hroster]
        exact h.queued
      · intro fd
        rw [hkernel, hroster]
        by_cases hfd : fd = report.1
        · simp [hfd, hclient]
        · simpa [hfd] using h.held fd
      · rw [hroster]; exact h.distinct
      · rw [hroster]; exact h.apart
      · rw [hroster]; exact h.injective
      · rw [hroster]; exact h.bornWaiting
      · rw [hroster]; exact h.bornHeld
  | closed client connection _ _ _ _ hkernel hroster _ =>
      have hbefore : ∀ fd other, next.roster.holder fd = some other →
          s.roster.holder fd = some other := by
        intro fd other hheld
        rw [hroster] at hheld
        by_cases hfd : fd = report.1
        · simp [hfd] at hheld
        · simpa [hfd] using hheld
      refine ⟨?_, ?_, ?_, ?_, ?_, ?_, ?_⟩
      · rw [hkernel, hroster]
        exact h.queued
      · intro fd
        rw [hkernel, hroster]
        by_cases hfd : fd = report.1
        · simp [hfd]
        · simpa [hfd] using h.held fd
      · rw [hroster]; exact h.distinct
      · intro fd other hheld
        rw [hroster]
        exact h.apart fd other (hbefore fd other hheld)
      · exact fun fd fd' other hheld hheld' =>
          h.injective fd fd' other (hbefore fd other hheld) (hbefore fd' other hheld')
      · rw [hroster]; exact h.bornWaiting
      · intro fd other hheld
        rw [hroster]
        exact h.bornHeld fd other (hbefore fd other hheld)

/-- The holder of a descriptor that is not reported stays. -/
theorem holder_after_turn {s next : Sockets} {report : Int × Int} (h : s.Sound)
    (hturn : s.turn report = some next) {fd : Int} {client : Nat} (hfd : fd ≠ report.1)
    (hheld : s.roster.holder fd = some client) : next.roster.holder fd = some client := by
  cases sockets_turn_cases h hturn with
  | accepted other connection waiting backlog _ _ _ hfree _ hroster _ =>
      -- `accept` returns a number that is not in use.
      have hne : fd ≠ report.2 := by
        rintro rfl
        rw [h.held, hheld] at hfree
        cases hfree
      rw [hroster]
      simpa [hne] using hheld
  | read _ _ _ _ _ _ _ _ _ hroster _ =>
      rw [hroster]
      exact hheld
  | closed _ _ _ _ _ _ _ hroster _ =>
      rw [hroster]
      simpa [hfd] using hheld

/-! ## A batch -/

/-- The calls of `vp_wait` do not change the module record. -/
theorem vpm_applyCalls (calls : List SysCall) (kernel : Kernel) :
    (calls.foldl Kernel.applyCall kernel).vpm = kernel.vpm := by
  induction calls generalizing kernel with
  | nil => rfl
  | cons call calls ih =>
      rw [List.foldl_cons, ih]
      cases call with
      | opened fd =>
          unfold Kernel.applyCall
          cases kernel.backlog <;> rfl
      | epollAdd fd edgeTriggered => rfl
      | closed fd => rfl

/-- `vp_wait` on the batch of the reports: what it stores is what the turns read. -/
theorem serverLoop_batchOf {s next : Sockets} {reports : List (Int × Int)}
    (hrun : runFrom Sockets.turn s reports = some next) :
    (serverLoop s.kernel.vpm (batchOf s.kernel reports)).exited = false ∧
      (serverLoop s.kernel.vpm (batchOf s.kernel reports)).vpm = next.kernel.vpm ∧
      (serverLoop s.kernel.vpm (batchOf s.kernel reports)).vpt =
        (historyFrom Sockets.turn Sockets.reads s reports).map Prod.snd := by
  induction reports generalizing s with
  | nil =>
      obtain rfl := Option.some.inj hrun
      exact ⟨rfl, rfl, rfl⟩
  | cons report rest ih =>
      obtain ⟨middle, hturn, hrest⟩ := runFrom_cons_eq_some.mp hrun
      obtain ⟨hexited, hvpm, hvpt⟩ := ih hrest
      have hkernel : s.kernel.turn report = some middle.kernel := by
        unfold Sockets.turn at hturn
        split at hturn
        · cases hturn
        · rename_i kernel hkernel
          obtain rfl := Option.some.inj hturn
          exact hkernel
      have hread := hkernel
      unfold Kernel.turn at hread
      cases hevent : s.kernel.outcome report.1 report.2 with
      | none => simp [hevent] at hread
      | some event =>
          simp only [hevent] at hread
          cases hends : (serverEvent s.kernel.vpm event).exited with
          | true => simp [hends] at hread
          | false =>
              have hmiddle : (serverEvent s.kernel.vpm event).vpm = middle.kernel.vpm := by
                simp only [hends, Bool.false_eq_true, if_false, Option.some.injEq] at hread
                rw [← hread, vpm_applyCalls]
              have hbatch : batchOf s.kernel (report :: rest) =
                  event :: batchOf middle.kernel rest := by
                rw [batchOf, historyFrom, hkernel]
                simp [hevent, batchOf]
              have hhistory : (historyFrom Sockets.turn Sockets.reads s (report :: rest)).map
                    Prod.snd =
                  (event.wholeRequest s.kernel.vpm.serverFd).toList ++
                    (historyFrom Sockets.turn Sockets.reads middle rest).map Prod.snd := by
                rw [historyFrom, hturn]
                simp [Sockets.reads, hevent, Function.comp_def]
              rw [hbatch, serverLoop, hends, hmiddle, hhistory, ← hvpt, ← vpt_serverEvent]
              exact ⟨hexited, hvpm, rfl⟩

/-- A descriptor that no report of the batch names keeps its holder. -/
theorem holder_after_turns {s next : Sockets} {reports : List (Int × Int)} (h : s.Sound)
    (hrun : runFrom Sockets.turn s reports = some next) {fd : Int} {client : Nat}
    (hfd : fd ∉ reports.map Prod.fst) (hheld : s.roster.holder fd = some client) :
    next.roster.holder fd = some client := by
  induction reports generalizing s with
  | nil =>
      obtain rfl := Option.some.inj hrun
      exact hheld
  | cons report rest ih =>
      obtain ⟨middle, hturn, hrest⟩ := runFrom_cons_eq_some.mp hrun
      rw [List.map_cons, List.mem_cons, not_or] at hfd
      exact ih (sound_turn h hturn) hrest hfd.2 (holder_after_turn h hturn hfd.1 hheld)

/-- When the batch has been read, the descriptor of each request still belongs to the client that
sent it: a batch reports no descriptor twice. -/
theorem reads_holder {s next : Sockets} {reports : List (Int × Int)} (h : s.Sound)
    (hnodup : (reports.map Prod.fst).Nodup) (hrun : runFrom Sockets.turn s reports = some next)
    {entry : Option Nat × VpTransfer}
    (hentry : entry ∈ historyFrom Sockets.turn Sockets.reads s reports) :
    entry.1.isSome ∧ next.roster.holder entry.2.sockFd = entry.1 := by
  induction reports generalizing s with
  | nil => exact absurd hentry List.not_mem_nil
  | cons report rest ih =>
      obtain ⟨middle, hturn, hrest⟩ := runFrom_cons_eq_some.mp hrun
      rw [List.map_cons, List.nodup_cons] at hnodup
      have hmiddle := sound_turn h hturn
      rw [historyFrom, hturn, List.mem_append] at hentry
      rcases hentry with hfirst | hlater
      · cases sockets_turn_cases h hturn with
        | accepted _ _ _ _ _ _ _ _ _ _ hreads =>
            rw [hreads] at hfirst
            exact absurd hfirst List.not_mem_nil
        | read client connection message unread _ hclient _ _ _ hroster hreads =>
            rw [hreads, List.mem_singleton] at hfirst
            subst hfirst
            have hheld : middle.roster.holder report.1 = some client := by
              rw [hroster]
              exact hclient
            exact ⟨rfl, holder_after_turns hmiddle hrest hnodup.1 hheld⟩
        | closed _ _ _ _ _ _ _ _ hreads =>
            rw [hreads] at hfirst
            exact absurd hfirst List.not_mem_nil
      · exact ih hmiddle hnodup.2 hrest hlater

end Vpipc
end AislabVP
