import AislabVP.Vpipc.Roster

/-!
# The accounts of the clients

What a client has sent is, at any time, what `vp_wait` has read from it, in this order, followed
by what lies unread in its socket: while it waits for `accept`, when it has been accepted, and
when its descriptor has been closed.  Actions of the clients (`accounts_client`) and turns
of the event loop (`accounts_turn`) keep the balance.
-/

namespace AislabVP
namespace Vpipc

open Foundation

/-- One action of the clients or of `epoll_wait`. -/
def Sockets.step (s : Sockets) : NetAction → Option Sockets
  | .connect =>
      (s.kernel.step .connect).map fun kernel =>
        { kernel := kernel
          roster :=
            { s.roster with
              born := s.roster.born + 1
              waiting := s.roster.waiting ++ [s.roster.born] } }
  | .wait reports =>
      if (s.kernel.step (.wait reports)).isSome then runFrom Sockets.turn s reports else none
  | action => (s.kernel.step action).map fun kernel => { s with kernel := kernel }

/-- What a client sends with an action. -/
def Sockets.asks (s : Sockets) : NetAction → List (Option Nat × VpTransferData)
  | .sendWaiting index message => [(s.roster.waiting[index]?, message)]
  | .send fd message => [(s.roster.holder fd, message)]
  | .connect | .disconnectWaiting _ | .disconnect _ | .wait _ => []

/-- The requests that lie unread in the socket of a client. -/
inductive Sockets.Unread (s : Sockets) (client : Nat) : List VpTransferData → Prop
  | waiting (index : Nat) (connection : Connection)
      (hclient : s.roster.waiting[index]? = some client)
      (hbacklog : s.kernel.backlog[index]? = some connection) : Unread s client connection.unread
  | accepted (fd : Int) (connection : Connection) (hclient : s.roster.holder fd = some client)
      (hopen : s.kernel.connections fd = some connection) : Unread s client connection.unread
  | gone (hwaiting : client ∉ s.roster.waiting)
      (hclosed : ∀ fd, s.roster.holder fd ≠ some client) : Unread s client []

/-- The entries of a log that belong to a client. -/
def entriesOf {Entry : Type*} (client : Nat) (log : List (Option Nat × Entry)) : List Entry :=
  log.filterMap fun entry => if entry.1 = some client then some entry.2 else none

/-! ## Entries of a log -/

@[simp] theorem entriesOf_append {Entry : Type*} (client : Nat)
    (log more : List (Option Nat × Entry)) :
    entriesOf client (log ++ more) = entriesOf client log ++ entriesOf client more :=
  List.filterMap_append

theorem entriesOf_own {Entry : Type*} (client : Nat) (entry : Entry) :
    entriesOf client [(some client, entry)] = [entry] := by
  simp [entriesOf]

theorem entriesOf_other {Entry : Type*} {client other : Nat} (hne : other ≠ client)
    (entry : Entry) : entriesOf client [(some other, entry)] = [] := by
  simp [entriesOf, hne]

/-! ## The accounts of the clients -/

/-- What has been sent is what has been read and what is unread. -/
structure Accounts (s : Sockets) (asked : List (Option Nat × VpTransferData))
    (taken : List (Option Nat × VpTransfer)) : Prop where
  balance : ∀ client unread, s.Unread client unread →
    entriesOf client asked = (entriesOf client taken).map VpTransfer.data ++ unread
  unborn : ∀ client, s.roster.born ≤ client → entriesOf client asked = []

/-- Every client has its unread requests. -/
theorem Sockets.Sound.exists_unread {s : Sockets} (h : s.Sound) (client : Nat) :
    ∃ unread, s.Unread client unread := by
  by_cases hwaiting : client ∈ s.roster.waiting
  · obtain ⟨index, hindex, hclient⟩ := List.mem_iff_getElem.mp hwaiting
    have hbacklog : index < s.kernel.backlog.length := by
      rw [h.queued]
      exact hindex
    exact ⟨_, .waiting index s.kernel.backlog[index]
      (List.getElem?_eq_some_iff.mpr ⟨hindex, hclient⟩) (List.getElem?_eq_getElem hbacklog)⟩
  · by_cases hheld : ∃ fd, s.roster.holder fd = some client
    · obtain ⟨fd, hheld⟩ := hheld
      have hopen : s.kernel.connections fd ≠ none := by
        rw [Ne, h.held, hheld]
        exact nofun
      obtain ⟨connection, hopen⟩ := Option.ne_none_iff_exists'.mp hopen
      exact ⟨_, .accepted fd connection hheld hopen⟩
    · push Not at hheld
      exact ⟨[], .gone hwaiting hheld⟩

/-- A turn moves the oldest unread request of one client into the array. -/
theorem accounts_turn {s next : Sockets} {report : Int × Int}
    {asked : List (Option Nat × VpTransferData)} {taken : List (Option Nat × VpTransfer)}
    (h : s.Sound) (haccounts : Accounts s asked taken) (hturn : s.turn report = some next) :
    Accounts next asked (taken ++ s.reads report) := by
  cases sockets_turn_cases h hturn with
  | accepted client connection waiting backlog _ hwaiting hbacklog hfree hkernel hroster hreads =>
      rw [hreads, List.append_nil]
      refine ⟨?_, by rw [hroster]; exact haccounts.unborn⟩
      intro other unread hunread
      refine haccounts.balance other unread ?_
      cases hunread with
      | waiting index found hother hfound =>
          rw [hroster] at hother
          rw [hkernel] at hfound
          exact .waiting (index + 1) found (by rw [hwaiting]; exact hother)
            (by rw [hbacklog]; exact hfound)
      | accepted fd found hother hfound =>
          rw [hroster] at hother
          rw [hkernel] at hfound
          by_cases hfd : fd = report.2
          · obtain rfl : client = other := by simpa [hfd] using hother
            obtain rfl : connection.register true = found := by simpa [hfd] using hfound
            exact .waiting 0 connection (by rw [hwaiting]; rfl) (by rw [hbacklog]; rfl)
          · exact .accepted fd found (by simpa [hfd] using hother) (by simpa [hfd] using hfound)
      | gone hgone hclosed =>
          rw [hroster] at hgone hclosed
          have hself : other ≠ client := by
            rintro rfl
            exact hclosed report.2 (by simp)
          refine .gone ?_ fun fd hheld => ?_
          · rw [hwaiting, List.mem_cons]
            rintro (hsame | hmem)
            · exact hself hsame
            · exact hgone hmem
          · have hfd : fd ≠ report.2 := by
              rintro rfl
              rw [h.held, hheld] at hfree
              cases hfree
            exact hclosed fd (by simpa [hfd] using hheld)
  | read client connection message rest _ hclient hopen hmessages hkernel hroster hreads =>
      rw [hreads]
      refine ⟨?_, by rw [hroster]; exact haccounts.unborn⟩
      intro other unread hunread
      rw [entriesOf_append, List.map_append]
      by_cases hother : client = other
      · subst hother
        have hbefore := haccounts.balance client _ (.accepted report.1 connection hclient hopen)
        have hrest : unread = rest := by
          cases hunread with
          | waiting index found hwaits _ =>
              rw [hroster] at hwaits
              exact absurd (List.mem_of_getElem? hwaits) (h.apart _ _ hclient)
          | accepted fd found hheld hfound =>
              rw [hroster] at hheld
              obtain rfl := h.injective _ _ _ hclient hheld
              obtain rfl : connection.reportAndRead = found := by simpa [hkernel] using hfound
              simp [Connection.reportAndRead, hmessages]
          | gone _ hclosed =>
              rw [hroster] at hclosed
              exact absurd hclient (hclosed _)
        rw [hbefore, hmessages, entriesOf_own, hrest]
        simp
      · rw [entriesOf_other hother, List.map_nil, List.append_nil]
        refine haccounts.balance other unread ?_
        cases hunread with
        | waiting index found hwaits hfound =>
            rw [hroster] at hwaits
            rw [hkernel] at hfound
            exact .waiting index found hwaits hfound
        | accepted fd found hheld hfound =>
            rw [hroster] at hheld
            have hfd : fd ≠ report.1 := by
              rintro rfl
              exact hother (Option.some.inj (hclient.symm.trans hheld))
            exact .accepted fd found hheld (by simpa [hkernel, hfd] using hfound)
        | gone hgone hclosed =>
            rw [hroster] at hgone hclosed
            exact .gone hgone hclosed
  | closed client connection _ hclient hopen hmessages hkernel hroster hreads =>
      rw [hreads, List.append_nil]
      refine ⟨?_, by rw [hroster]; exact haccounts.unborn⟩
      intro other unread hunread
      refine haccounts.balance other unread ?_
      cases hunread with
      | waiting index found hwaits hfound =>
          rw [hroster] at hwaits
          rw [hkernel] at hfound
          exact .waiting index found hwaits hfound
      | accepted fd found hheld hfound =>
          rw [hroster] at hheld
          rw [hkernel] at hfound
          have hfd : fd ≠ report.1 := by
            rintro rfl
            simp at hheld
          exact .accepted fd found (by simpa [hfd] using hheld) (by simpa [hfd] using hfound)
      | gone hgone hclosed =>
          rw [hroster] at hgone hclosed
          by_cases hother : client = other
          · -- The socket that has been closed was empty.
            subst hother
            rw [← hmessages]
            exact .accepted report.1 connection hclient hopen
          · refine .gone hgone fun fd hheld => hclosed fd ?_
            have hfd : fd ≠ report.1 := by
              rintro rfl
              exact hother (Option.some.inj (hclient.symm.trans hheld))
            simpa [hfd] using hheld

/-- What an action of the clients can do: one more client waits, or something is added to what a
waiting or an accepted client has sent. -/
inductive ClientEffect (s : Sockets) (action : NetAction) (next : Sockets) : Prop
  | connected (fresh : Connection) (hempty : fresh.unread = [])
      (hnext : next =
        { kernel := { s.kernel with backlog := s.kernel.backlog ++ [fresh] }
          roster :=
            { s.roster with
              born := s.roster.born + 1
              waiting := s.roster.waiting ++ [s.roster.born] } })
      (hasks : s.asks action = [])
  | waiting (index : Nat) (connection changed : Connection) (sent : List VpTransferData)
      (hbacklog : s.kernel.backlog[index]? = some connection)
      (hchanged : changed.unread = connection.unread ++ sent)
      (hnext : next =
        { s with kernel := { s.kernel with backlog := s.kernel.backlog.set index changed } })
      (hasks : s.asks action = sent.map fun message => (s.roster.waiting[index]?, message))
  | accepted (fd : Int) (connection changed : Connection) (sent : List VpTransferData)
      (hopen : s.kernel.connections fd = some connection)
      (hchanged : changed.unread = connection.unread ++ sent)
      (hnext : next =
        { s with
          kernel :=
            { s.kernel with
              connections := Function.update s.kernel.connections fd (some changed) } })
      (hasks : s.asks action = sent.map fun message => (s.roster.holder fd, message))

theorem client_cases {s next : Sockets} {action : NetAction}
    (hclient : ∀ reports, action ≠ .wait reports) (hstep : s.step action = some next) :
    ClientEffect s action next := by
  cases action with
  | connect =>
      obtain rfl := Option.some.inj hstep
      exact .connected _ rfl rfl rfl
  | sendWaiting index message =>
      obtain ⟨kernel, hkernel, rfl⟩ := Option.map_eq_some_iff.mp hstep
      simp only [Kernel.step] at hkernel
      split at hkernel
      · cases hkernel
      · rename_i connection hbacklog
        split at hkernel
        · cases hkernel
        · obtain rfl := Option.some.inj hkernel
          exact .waiting index connection (connection.arrive message) [message] hbacklog rfl rfl rfl
  | disconnectWaiting index =>
      obtain ⟨kernel, hkernel, rfl⟩ := Option.map_eq_some_iff.mp hstep
      simp only [Kernel.step] at hkernel
      split at hkernel
      · cases hkernel
      · rename_i connection hbacklog
        obtain rfl := Option.some.inj hkernel
        exact .waiting index connection connection.finish [] hbacklog (List.append_nil _).symm
          rfl rfl
  | send fd message =>
      obtain ⟨kernel, hkernel, rfl⟩ := Option.map_eq_some_iff.mp hstep
      simp only [Kernel.step] at hkernel
      split at hkernel
      · cases hkernel
      · rename_i connection hopen
        split at hkernel
        · cases hkernel
        · obtain rfl := Option.some.inj hkernel
          exact .accepted fd connection (connection.arrive message) [message] hopen rfl rfl rfl
  | disconnect fd =>
      obtain ⟨kernel, hkernel, rfl⟩ := Option.map_eq_some_iff.mp hstep
      simp only [Kernel.step] at hkernel
      split at hkernel
      · cases hkernel
      · rename_i connection hopen
        obtain rfl := Option.some.inj hkernel
        exact .accepted fd connection connection.finish [] hopen (List.append_nil _).symm rfl rfl
  | wait reports => exact absurd rfl (hclient reports)

/-- The clients do not touch the module record, and nothing of theirs opens a descriptor. -/
theorem kernel_of_client {s next : Sockets} {action : NetAction}
    (hclient : ∀ reports, action ≠ .wait reports) (hstep : s.step action = some next) :
    next.kernel.vpm = s.kernel.vpm ∧
      ((∀ fd, s.kernel.connections fd = none) → ∀ fd, next.kernel.connections fd = none) := by
  cases client_cases hclient hstep with
  | connected fresh _ hnext _ =>
      subst hnext
      exact ⟨rfl, id⟩
  | waiting index connection changed sent _ _ hnext _ =>
      subst hnext
      exact ⟨rfl, id⟩
  | accepted fd connection changed sent hopen _ hnext _ =>
      subst hnext
      refine ⟨rfl, fun hnone => ?_⟩
      rw [hnone fd] at hopen
      cases hopen

/-- One connection is replaced by another one with `sent` behind its unread requests. -/
theorem accounts_sent {s next : Sockets} {asked : List (Option Nat × VpTransferData)}
    {taken : List (Option Nat × VpTransfer)} (haccounts : Accounts s asked taken) {client : Nat}
    (sent : List VpTransferData) {entries : List (Option Nat × VpTransferData)}
    (hborn : next.roster.born = s.roster.born) (hclient : client < s.roster.born)
    (hown : entriesOf client entries = sent)
    (hothers : ∀ other ≠ client, entriesOf other entries = [])
    (hself : ∀ unread, next.Unread client unread →
      ∃ before, s.Unread client before ∧ unread = before ++ sent)
    (hsame : ∀ other ≠ client, ∀ unread, next.Unread other unread → s.Unread other unread) :
    Accounts next (asked ++ entries) taken := by
  constructor
  · intro other unread hunread
    rw [entriesOf_append]
    by_cases hother : other = client
    · subst hother
      obtain ⟨before, hbefore, rfl⟩ := hself unread hunread
      rw [haccounts.balance other before hbefore, hown, List.append_assoc]
    · rw [hothers other hother, List.append_nil]
      exact haccounts.balance other unread (hsame other hother unread hunread)
  · intro other hother
    rw [hborn] at hother
    rw [entriesOf_append, haccounts.unborn other hother, hothers other (by omega)]
    rfl

/-- A client connects: it has sent nothing. -/
theorem accounts_connect {s : Sockets} {asked : List (Option Nat × VpTransferData)}
    {taken : List (Option Nat × VpTransfer)} (h : s.Sound) (haccounts : Accounts s asked taken)
    (fresh : Connection) (hempty : fresh.unread = []) :
    let next : Sockets :=
      { kernel := { s.kernel with backlog := s.kernel.backlog ++ [fresh] }
        roster :=
          { s.roster with
            born := s.roster.born + 1, waiting := s.roster.waiting ++ [s.roster.born] } }
    next.Sound ∧ Accounts next asked taken := by
  intro next
  have hnotWaiting : s.roster.born ∉ s.roster.waiting := fun hmem =>
    absurd (h.bornWaiting _ hmem) (lt_irrefl _)
  have hnotHeld : ∀ fd, s.roster.holder fd ≠ some s.roster.born := fun fd hheld =>
    absurd (h.bornHeld fd _ hheld) (lt_irrefl _)
  refine ⟨⟨?_, h.held, ?_, ?_, h.injective, ?_, ?_⟩, ?_, ?_⟩
  · simp [next, h.queued]
  · rw [List.nodup_append]
    refine ⟨h.distinct, List.nodup_singleton _, fun client hmem other hother => ?_⟩
    rw [List.mem_singleton] at hother
    rintro rfl
    exact hnotWaiting (hother ▸ hmem)
  · intro fd client hheld hmem
    rcases List.mem_append.mp hmem with hbefore | hnew
    · exact h.apart fd client hheld hbefore
    · exact hnotHeld fd (by rw [← List.mem_singleton.mp hnew]; exact hheld)
  · intro client hmem
    rcases List.mem_append.mp hmem with hbefore | hnew
    · exact Nat.lt_succ_of_lt (h.bornWaiting client hbefore)
    · rw [List.mem_singleton.mp hnew]
      exact Nat.lt_succ_self _
  · exact fun fd client hheld => Nat.lt_succ_of_lt (h.bornHeld fd client hheld)
  · intro client unread hunread
    cases hunread with
    | waiting index connection hwaits hfound =>
        by_cases hold : index < s.roster.waiting.length
        · have hindex : index < s.kernel.backlog.length := by
            rw [h.queued]
            exact hold
          refine haccounts.balance client _ (.waiting index connection ?_ ?_)
          · simpa [next, List.getElem?_append_left hold] using hwaits
          · simpa [next, List.getElem?_append_left hindex] using hfound
        · -- The new client has no history.
          have hlast : index = s.roster.waiting.length := by
            have hbound := (List.getElem?_eq_some_iff.mp hwaits).1
            simp [next] at hbound
            omega
          subst hlast
          obtain rfl : s.roster.born = client := by simpa [next] using hwaits
          obtain rfl : fresh = connection := by
            rw [← h.queued] at hfound
            simpa [next] using hfound
          rw [hempty]
          exact haccounts.balance _ [] (.gone hnotWaiting hnotHeld)
    | accepted fd connection hheld hopen =>
        exact haccounts.balance client _ (.accepted fd connection hheld hopen)
    | gone hgone hclosed =>
        exact haccounts.balance client []
          (.gone (fun hmem => hgone (List.mem_append_left _ hmem)) hclosed)
  · exact fun client hborn => haccounts.unborn client (Nat.le_of_succ_le hborn)

/-- Something happens to a client that waits for `accept`. -/
theorem accounts_waiting {s : Sockets} {asked : List (Option Nat × VpTransferData)}
    {taken : List (Option Nat × VpTransfer)} (h : s.Sound) (haccounts : Accounts s asked taken)
    {index : Nat} {connection changed : Connection} (sent : List VpTransferData)
    (hbacklog : s.kernel.backlog[index]? = some connection)
    (hchanged : changed.unread = connection.unread ++ sent) :
    let next : Sockets :=
      { s with kernel := { s.kernel with backlog := s.kernel.backlog.set index changed } }
    next.Sound ∧
      Accounts next (asked ++ sent.map fun message => (s.roster.waiting[index]?, message))
        taken := by
  intro next
  have hindex : index < s.roster.waiting.length := by
    rw [← h.queued]
    exact (List.getElem?_eq_some_iff.mp hbacklog).1
  have hclient : s.roster.waiting[index]? = some s.roster.waiting[index] :=
    List.getElem?_eq_getElem hindex
  have hmem : s.roster.waiting[index] ∈ s.roster.waiting := List.getElem_mem hindex
  refine ⟨⟨?_, h.held, h.distinct, h.apart, h.injective, h.bornWaiting, h.bornHeld⟩,
    accounts_sent haccounts sent rfl (h.bornWaiting _ hmem) ?_ ?_ ?_ ?_⟩
  · simp [next, h.queued]
  · simp [entriesOf, hclient, List.filterMap_map]
  · intro other hother
    simp [entriesOf, hclient, List.filterMap_map, Ne.symm hother]
  · intro unread hunread
    cases hunread with
    | waiting place found hwaits hfound =>
        have hplace : place = index := by
          obtain ⟨hlt, hsame⟩ := List.getElem?_eq_some_iff.mp hwaits
          exact (h.distinct.getElem_inj_iff).mp hsame
        subst hplace
        have hlength := (List.getElem?_eq_some_iff.mp hbacklog).1
        obtain rfl : changed = found := by simpa [next, hlength] using hfound
        exact ⟨connection.unread, .waiting place connection hclient hbacklog, hchanged⟩
    | accepted fd found hheld _ => exact absurd hmem (h.apart fd _ hheld)
    | gone hgone _ => exact absurd hmem hgone
  · intro other hother unread hunread
    cases hunread with
    | waiting place found hwaits hfound =>
        have hplace : index ≠ place := by
          rintro rfl
          exact hother (Option.some.inj (hwaits.symm.trans hclient))
        exact .waiting place found hwaits (by simpa [next, hplace] using hfound)
    | accepted fd found hheld hopen => exact .accepted fd found hheld hopen
    | gone hgone hclosed => exact .gone hgone hclosed

/-- Something happens to a client that has been accepted. -/
theorem accounts_accepted {s : Sockets} {asked : List (Option Nat × VpTransferData)}
    {taken : List (Option Nat × VpTransfer)} (h : s.Sound) (haccounts : Accounts s asked taken)
    {fd : Int} {connection changed : Connection} (sent : List VpTransferData)
    (hopen : s.kernel.connections fd = some connection)
    (hchanged : changed.unread = connection.unread ++ sent) :
    let next : Sockets :=
      { s with
        kernel :=
          { s.kernel with
            connections := Function.update s.kernel.connections fd (some changed) } }
    next.Sound ∧
      Accounts next (asked ++ sent.map fun message => (s.roster.holder fd, message)) taken := by
  intro next
  obtain ⟨client, hclient⟩ := h.holder_of_open hopen
  refine ⟨⟨h.queued, ?_, h.distinct, h.apart, h.injective, h.bornWaiting, h.bornHeld⟩,
    accounts_sent haccounts sent rfl (h.bornHeld fd client hclient) ?_ ?_ ?_ ?_⟩
  · intro other
    by_cases hother : other = fd
    · simp [next, hother, hclient]
    · simpa [next, hother] using h.held other
  · simp [entriesOf, hclient, List.filterMap_map]
  · intro other hother
    simp [entriesOf, hclient, List.filterMap_map, Ne.symm hother]
  · intro unread hunread
    cases hunread with
    | waiting place found hwaits _ =>
        exact absurd (List.mem_of_getElem? hwaits) (h.apart fd client hclient)
    | accepted place found hheld hfound =>
        obtain rfl := h.injective place fd client hheld hclient
        obtain rfl : changed = found := by simpa [next] using hfound
        exact ⟨connection.unread, .accepted place connection hclient hopen, hchanged⟩
    | gone _ hclosed => exact absurd hclient (hclosed fd)
  · intro other hother unread hunread
    cases hunread with
    | waiting place found hwaits hfound => exact .waiting place found hwaits hfound
    | accepted place found hheld hfound =>
        have hplace : place ≠ fd := by
          rintro rfl
          exact hother (Option.some.inj (hheld.symm.trans hclient))
        exact .accepted place found hheld (by simpa [next, hplace] using hfound)
    | gone hgone hclosed => exact .gone hgone hclosed

/-- What the clients do is entered in the accounts. -/
theorem accounts_client {s next : Sockets} {action : NetAction}
    {asked : List (Option Nat × VpTransferData)} {taken : List (Option Nat × VpTransfer)}
    (h : s.Sound) (haccounts : Accounts s asked taken)
    (hclient : ∀ reports, action ≠ .wait reports) (hstep : s.step action = some next) :
    next.Sound ∧ Accounts next (asked ++ s.asks action) taken := by
  cases client_cases hclient hstep with
  | connected fresh hempty hnext hasks =>
      subst hnext
      rw [hasks, List.append_nil]
      exact accounts_connect h haccounts fresh hempty
  | waiting index connection changed sent hbacklog hchanged hnext hasks =>
      subst hnext
      rw [hasks]
      exact accounts_waiting h haccounts sent hbacklog hchanged
  | accepted fd connection changed sent hopen hchanged hnext hasks =>
      subst hnext
      rw [hasks]
      exact accounts_accepted h haccounts sent hopen hchanged

/-! ## A batch -/

/-- What a batch reads, and the clients it is from. -/
theorem accounts_turns {s next : Sockets} {reports : List (Int × Int)}
    {asked : List (Option Nat × VpTransferData)} {taken : List (Option Nat × VpTransfer)}
    (h : s.Sound) (haccounts : Accounts s asked taken)
    (hrun : runFrom Sockets.turn s reports = some next) :
    next.Sound ∧
      Accounts next asked (taken ++ historyFrom Sockets.turn Sockets.reads s reports) := by
  induction reports generalizing s taken with
  | nil =>
      obtain rfl := Option.some.inj hrun
      rw [historyFrom, List.append_nil]
      exact ⟨h, haccounts⟩
  | cons report rest ih =>
      obtain ⟨middle, hturn, hrest⟩ := runFrom_cons_eq_some.mp hrun
      rw [historyFrom, hturn, ← List.append_assoc]
      exact ih (sound_turn h hturn) (accounts_turn h haccounts hturn) hrest

end Vpipc
end AislabVP
