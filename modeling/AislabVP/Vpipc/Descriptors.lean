import AislabVP.Vpipc.ConnectionState
import AislabVP.Vpipc.Stream

/-!
# The life of the descriptors

A module obtains descriptors from `epoll_create1`, `socket` and `accept`; `vp_wait`
closes the connections whose clients hang up, and `cleanup_vp_module` closes what the
record names.  `replayCalls` replays all these calls against the table of open
descriptors and fails at a `close` of a descriptor that is not open, so the calls of a
whole life close everything exactly once when the replay ends with an empty table
(`ClosedOnce`).

The record of a server remembers one connection, the one accepted last.  So its life
is clean if and only if that one, and no other, is connected when it ends; the life of
a client always is (`life_closed_once_iff`).  Which clients are connected is a matter
of the events alone (`clientsAfter`).
-/

namespace AislabVP
namespace Vpipc

open Foundation

/-! ## Whole lives -/

/-- The table of open descriptors after the calls; `none` when a descriptor is closed
that is not open. -/
def replayCalls : Finset Int → List SysCall → Option (Finset Int)
  | table, [] => some table
  | table, .opened fd :: rest => replayCalls (insert fd table) rest
  | table, .epollAdd _ _ :: rest => replayCalls table rest
  | table, .closed fd :: rest =>
      if fd ∈ table then replayCalls (table.erase fd) rest else none

/-- Every descriptor that was obtained is closed exactly once. -/
def ClosedOnce (calls : List SysCall) : Prop := replayCalls ∅ calls = some ∅

instance (calls : List SysCall) : Decidable (ClosedOnce calls) :=
  inferInstanceAs (Decidable (_ = _))

/-- The calls of a module from `create_vp_module` over any number of `vp_wait` calls to
`cleanup_vp_module`. -/
def lifeCalls (copy : LibraryCopy) (type : ModuleType) (epollFd fd : Int)
    (batches : List (List EpollEvent)) : List SysCall :=
  let created := createVpModule type epollFd fd
  let waits := vpWaitCalls copy created.1 batches
  created.2 ++ (waits.calls ++ cleanupVpModule waits.vpm)

/-! ## What the kernel may report -/

/-- Every `accept` of the batch returns a descriptor that is not open at that point. -/
def AcceptsFresh (vpm : VpIpcModule) (table : Finset Int) : List EpollEvent → Prop
  | [] => True
  | event :: rest =>
      (event.fd = vpm.serverFd → 0 ≤ event.accept ∧ event.accept ∉ table) ∧
        AcceptsFresh (serverEvent vpm event).vpm
          (applySysCalls table (serverEvent vpm event).calls) rest

instance AcceptsFresh.decide (vpm : VpIpcModule) (table : Finset Int) :
    (events : List EpollEvent) → Decidable (AcceptsFresh vpm table events)
  | [] => inferInstanceAs (Decidable True)
  | event :: rest =>
      have := AcceptsFresh.decide (serverEvent vpm event).vpm
        (applySysCalls table (serverEvent vpm event).calls) rest
      inferInstanceAs (Decidable (_ ∧ _))

/-- A batch that `epoll_wait` may report: different open descriptors that were added to
the `epoll` instance. -/
structure Reportable (vpm : VpIpcModule) (table : Finset Int) (batch : List EpollEvent) :
    Prop where
  distinct : (batch.map EpollEvent.fd).Nodup
  added : ∀ event ∈ batch, event.fd ∈ table ∧ event.fd ≠ vpm.epollFd
  fresh : vpm.type = .server → AcceptsFresh vpm table batch

instance (vpm : VpIpcModule) (table : Finset Int) (batch : List EpollEvent) :
    Decidable (Reportable vpm table batch) :=
  decidable_of_iff
    ((batch.map EpollEvent.fd).Nodup ∧
      (∀ event ∈ batch, event.fd ∈ table ∧ event.fd ≠ vpm.epollFd) ∧
      (vpm.type = .server → AcceptsFresh vpm table batch))
    ⟨fun h => ⟨h.1, h.2.1, h.2.2⟩, fun h => ⟨h.distinct, h.added, h.fresh⟩⟩

/-- Every batch of the run is one that the kernel may report. -/
def KernelRun (copy : LibraryCopy) : VpIpcModule → Finset Int → List (List EpollEvent) → Prop
  | _, _, [] => True
  | vpm, table, batch :: rest =>
      Reportable vpm table batch ∧
        KernelRun copy (vpWait copy vpm (some batch)).vpm
          (applySysCalls table (vpWait copy vpm (some batch)).calls) rest

instance KernelRun.decide (copy : LibraryCopy) (vpm : VpIpcModule) (table : Finset Int) :
    (batches : List (List EpollEvent)) → Decidable (KernelRun copy vpm table batches)
  | [] => inferInstanceAs (Decidable True)
  | batch :: rest =>
      have := KernelRun.decide copy (vpWait copy vpm (some batch)).vpm
        (applySysCalls table (vpWait copy vpm (some batch)).calls) rest
      inferInstanceAs (Decidable (_ ∧ _))

/-! ## Who is connected -/

/-- The clients of a server: the descriptors of those that are connected, and the one
accepted last. -/
structure Clients where
  connected : Finset Int
  latest : Option Int

/-- What an event means for the clients. -/
def Clients.after (serverFd : Int) (clients : Clients) (event : EpollEvent) : Clients :=
  if event.fd = serverFd then
    { connected := insert event.accept clients.connected, latest := some event.accept }
  else if event.recv.isClosed = true then
    { clients with connected := clients.connected.erase event.fd }
  else clients

/-- The clients after a run, from the events alone. -/
def clientsAfter (serverFd : Int) (batches : List (List EpollEvent)) : Clients :=
  batches.flatten.foldl (Clients.after serverFd) { connected := ∅, latest := none }

/-- The client accepted last is connected and no other one is; or none was accepted. -/
def Clients.OnlyLatest (clients : Clients) : Prop :=
  match clients.latest with
  | none => clients.connected = ∅
  | some fd => clients.connected = {fd}

/-! ## The replay -/

theorem replayCalls_append (table : Finset Int) (front back : List SysCall) :
    replayCalls table (front ++ back) =
      (replayCalls table front).bind fun middle => replayCalls middle back := by
  induction front generalizing table with
  | nil => rfl
  | cons call rest ih =>
      cases call with
      | opened fd => exact ih (insert fd table)
      | epollAdd fd edgeTriggered => exact ih table
      | closed fd =>
          by_cases hopen : fd ∈ table
          · simp only [List.cons_append, replayCalls, if_pos hopen]
            exact ih (table.erase fd)
          · simp only [List.cons_append, replayCalls, if_neg hopen]
            rfl

/-- A `close` in front. -/
theorem replayCalls_closed {table : Finset Int} {fd : Int} (hopen : fd ∈ table)
    (rest : List SysCall) :
    replayCalls table (.closed fd :: rest) = replayCalls (table.erase fd) rest := by
  rw [replayCalls, if_pos hopen]

/-- The calls of a result can be replayed, and the record and the table are related
afterwards. -/
def Replays (related : VpIpcModule → Finset Int → Prop) (table : Finset Int)
    (result : WaitResult) : Prop :=
  related result.vpm (applySysCalls table result.calls) ∧
    replayCalls table result.calls = some (applySysCalls table result.calls)

theorem Replays.andThen {middle related : VpIpcModule → Finset Int → Prop} {table : Finset Int}
    {first second : WaitResult} (hfirst : Replays middle table first)
    (hsecond : Replays related (applySysCalls table first.calls) second) :
    Replays related table (first.andThen second) := by
  unfold Replays
  simp only [WaitResult.andThen, applySysCalls_append]
  refine ⟨hsecond.1, ?_⟩
  rw [replayCalls_append, hfirst.2]
  exact hsecond.2

/-- What every `vp_wait` call keeps up is kept up by successive calls, with a value that
follows the batches. -/
theorem replays_waits {State : Type*} {copy : LibraryCopy}
    (related : State → VpIpcModule → Finset Int → Prop)
    (after : State → List EpollEvent → State)
    (hcall : ∀ {state vpm table batch}, related state vpm table → Reportable vpm table batch →
      (vpWait copy vpm (some batch)).exited = false →
      Replays (related (after state batch)) table (vpWait copy vpm (some batch)))
    (state : State) {vpm : VpIpcModule} {table : Finset Int} {batches : List (List EpollEvent)}
    (hstart : related state vpm table) (hkernel : KernelRun copy vpm table batches)
    (hlive : (vpWaitCalls copy vpm batches).exited = false) :
    Replays (related (batches.foldl after state)) table (vpWaitCalls copy vpm batches) := by
  induction batches generalizing state vpm table with
  | nil => exact ⟨hstart, rfl⟩
  | cons batch rest ih =>
      obtain ⟨hlive, hrest, heq⟩ := vpWaitCalls_cons hlive
      obtain ⟨hreport, hkernelRest⟩ := hkernel
      have hone := hcall hstart hreport hlive
      rw [heq]
      exact hone.andThen (ih (after state batch) hone.1 hkernelRest hrest)

/-! ## Servers -/

/-- The record and the table follow the clients. -/
structure Tracks (epollFd serverFd : Int) (clients : Clients) (vpm : VpIpcModule)
    (table : Finset Int) : Prop where
  isServer : vpm.type = .server
  epollFd_eq : vpm.epollFd = epollFd
  serverFd_eq : vpm.serverFd = serverFd
  sockFd_eq : vpm.sockFd = clients.latest.getD (-1)
  table_eq : table = insert epollFd (insert serverFd clients.connected)
  apart : epollFd ≠ serverFd ∧ epollFd ∉ clients.connected ∧ serverFd ∉ clients.connected
  latest : ∀ fd, clients.latest = some fd → fd ≠ -1 ∧ fd ≠ epollFd ∧ fd ≠ serverFd

variable {epollFd serverFd : Int} {vpm : VpIpcModule} {table : Finset Int} {clients : Clients}

/-- The `close` of a client's descriptor. -/
theorem erase_client {fd : Int} (hnotEpoll : fd ≠ epollFd) (hnotServer : fd ≠ serverFd)
    (connected : Finset Int) :
    (insert epollFd (insert serverFd connected)).erase fd =
      insert epollFd (insert serverFd (connected.erase fd)) := by
  rw [Finset.erase_insert_of_ne (Ne.symm hnotEpoll),
    Finset.erase_insert_of_ne (Ne.symm hnotServer)]

/-- A turn of the loop that accepts a client. -/
theorem Tracks.accept (h : Tracks epollFd serverFd clients vpm table) {event : EpollEvent}
    (hserver : event.fd = vpm.serverFd) (hnew : event.accept ∉ table)
    (hlive : (serverEvent vpm event).exited = false) :
    Replays (Tracks epollFd serverFd (clients.after serverFd event)) table
      (serverEvent vpm event) := by
  obtain ⟨hunset, hvpm, hcalls⟩ := serverEvent_accept hserver hlive
  have hclients : clients.after serverFd event =
      { connected := insert event.accept clients.connected, latest := some event.accept } := by
    rw [Clients.after, if_pos (hserver.trans h.serverFd_eq)]
  rw [h.table_eq] at hnew
  simp only [Finset.mem_insert, not_or] at hnew
  obtain ⟨hepoll, hlistener, -⟩ := hnew
  rw [Replays, hvpm, hcalls, hclients]
  refine ⟨⟨h.isServer, h.epollFd_eq, h.serverFd_eq, rfl, ?_, ?_, ?_⟩, rfl⟩
  · show insert event.accept table = _
    rw [h.table_eq]
    ext fd
    simp only [Finset.mem_insert]
    tauto
  · obtain ⟨hapart, hepollOut, hserverOut⟩ := h.apart
    simp only [Finset.mem_insert, not_or]
    exact ⟨hapart, ⟨Ne.symm hepoll, hepollOut⟩, ⟨Ne.symm hlistener, hserverOut⟩⟩
  · intro fd hfd
    obtain rfl := Option.some.inj hfd
    exact ⟨hunset, hepoll, hlistener⟩

/-- A turn on a client that has sent or hung up. -/
theorem Tracks.request (h : Tracks epollFd serverFd clients vpm table) {event : EpollEvent}
    (hserver : event.fd ≠ vpm.serverFd) (hadded : event.fd ∈ table ∧ event.fd ≠ vpm.epollFd)
    (hlive : (serverEvent vpm event).exited = false) :
    Replays (Tracks epollFd serverFd (clients.after serverFd event)) table
      (serverEvent vpm event) := by
  obtain ⟨hvpm, hcalls⟩ := serverEvent_request hserver hlive
  have hclient : event.fd ≠ serverFd := fun hsame => hserver (hsame.trans h.serverFd_eq.symm)
  have hnotEpoll : event.fd ≠ epollFd := fun hsame => hadded.2 (hsame.trans h.epollFd_eq.symm)
  rw [Replays, hvpm, hcalls, Clients.after, if_neg hclient]
  by_cases hclosed : event.recv.isClosed = true
  · -- The connection is open, so this is its one `close`.
    rw [if_pos hclosed, if_pos hclosed]
    refine ⟨⟨h.isServer, h.epollFd_eq, h.serverFd_eq, h.sockFd_eq, ?_, ?_, h.latest⟩,
      replayCalls_closed hadded.1 []⟩
    · show table.erase event.fd = _
      rw [h.table_eq, erase_client hnotEpoll hclient]
    · obtain ⟨hapart, hepollOut, hserverOut⟩ := h.apart
      exact ⟨hapart, fun hmem => hepollOut (Finset.mem_of_mem_erase hmem),
        fun hmem => hserverOut (Finset.mem_of_mem_erase hmem)⟩
  · rw [if_neg hclosed, if_neg hclosed]
    exact ⟨h, rfl⟩

/-- A turn of the loop on an event that the kernel may report. -/
theorem Tracks.turn (h : Tracks epollFd serverFd clients vpm table) {event : EpollEvent}
    (hadded : event.fd ∈ table ∧ event.fd ≠ vpm.epollFd)
    (hfresh : event.fd = vpm.serverFd → 0 ≤ event.accept ∧ event.accept ∉ table)
    (hlive : (serverEvent vpm event).exited = false) :
    Replays (Tracks epollFd serverFd (clients.after serverFd event)) table
      (serverEvent vpm event) := by
  by_cases hserver : event.fd = vpm.serverFd
  · exact h.accept hserver (hfresh hserver).2 hlive
  · exact h.request hserver hadded hlive

/-- A turn closes the reported descriptor at most. -/
theorem mem_table_after_turn {event : EpollEvent}
    (hlive : (serverEvent vpm event).exited = false) {fd : Int} (hother : fd ≠ event.fd)
    (hopen : fd ∈ table) :
    fd ∈ applySysCalls table (serverEvent vpm event).calls := by
  by_cases hserver : event.fd = vpm.serverFd
  · rw [(serverEvent_accept hserver hlive).2.2]
    exact Finset.mem_insert_of_mem hopen
  · rw [(serverEvent_request hserver hlive).2]
    split
    · exact Finset.mem_erase.mpr ⟨hother, hopen⟩
    · exact hopen

/-- The loop over a batch, by induction on the events; the later ones stay open since
the reported descriptors differ. -/
theorem Tracks.loop (h : Tracks epollFd serverFd clients vpm table) {events : List EpollEvent}
    (hdistinct : (events.map EpollEvent.fd).Nodup)
    (hadded : ∀ event ∈ events, event.fd ∈ table ∧ event.fd ≠ vpm.epollFd)
    (hfresh : AcceptsFresh vpm table events) (hlive : (serverLoop vpm events).exited = false) :
    Replays (Tracks epollFd serverFd (events.foldl (Clients.after serverFd) clients)) table
      (serverLoop vpm events) := by
  induction events generalizing vpm table clients with
  | nil => exact ⟨h, rfl⟩
  | cons event rest ih =>
      obtain ⟨hturn, hrest, heq⟩ := serverLoop_cons hlive
      rw [List.map_cons, List.nodup_cons] at hdistinct
      rw [List.forall_mem_cons] at hadded
      have hone := h.turn hadded.1 hfresh.1 hturn
      have haddedRest : ∀ later ∈ rest,
          later.fd ∈ applySysCalls table (serverEvent vpm event).calls ∧
            later.fd ≠ (serverEvent vpm event).vpm.epollFd := by
        intro later hlater
        obtain ⟨hopen, hnotEpoll⟩ := hadded.2 later hlater
        have hother : later.fd ≠ event.fd := fun hsame =>
          hdistinct.1 (List.mem_map.mpr ⟨later, hlater, hsame⟩)
        rw [(serverEvent_record vpm event).2.2]
        exact ⟨mem_table_after_turn hturn hother hopen, hnotEpoll⟩
      rw [heq, List.foldl_cons]
      exact hone.andThen (ih hone.1 hdistinct.2 haddedRest hfresh.2 hrest)

/-- Successive `vp_wait` calls. -/
theorem Tracks.waits {copy : LibraryCopy} (h : Tracks epollFd serverFd clients vpm table)
    {batches : List (List EpollEvent)} (hkernel : KernelRun copy vpm table batches)
    (hlive : (vpWaitCalls copy vpm batches).exited = false) :
    Replays (Tracks epollFd serverFd (batches.flatten.foldl (Clients.after serverFd) clients))
      table (vpWaitCalls copy vpm batches) := by
  rw [List.foldl_flatten]
  refine replays_waits (Tracks epollFd serverFd)
    (fun clients batch => batch.foldl (Clients.after serverFd) clients)
    (fun {clients vpm table batch} h hreport hlive => ?_) clients h hkernel hlive
  rw [vpWait_of_server copy h.isServer] at hlive ⊢
  exact h.loop hreport.distinct hreport.added (hreport.fresh h.isServer) hlive

/-- The listener and the `epoll` instance, which `cleanup_vp_module` closes in any case. -/
theorem replayCalls_cleanup_rest (hapart : epollFd ≠ serverFd) {connected : Finset Int}
    (hepoll : epollFd ∉ connected) (hserver : serverFd ∉ connected) :
    replayCalls (insert epollFd (insert serverFd connected))
      [.closed serverFd, .closed epollFd] = some connected := by
  have hlistener : (insert epollFd (insert serverFd connected)).erase serverFd =
      insert epollFd connected := by
    rw [Finset.erase_insert_of_ne hapart, Finset.erase_insert hserver]
  rw [replayCalls_closed (by simp), hlistener, replayCalls_closed (by simp),
    Finset.erase_insert hepoll]
  rfl

/-- What is left open by `cleanup_vp_module`, or closed once more by it. -/
theorem Tracks.cleanup (h : Tracks epollFd serverFd clients vpm table)
    (hlistener : serverFd ≠ -1) :
    replayCalls table (cleanupVpModule vpm) = some ∅ ↔ clients.OnlyLatest := by
  obtain ⟨hapart, hepoll, hserver⟩ := h.apart
  have hcleanup : cleanupVpModule vpm =
      (if vpm.sockFd ≠ -1 then [.closed vpm.sockFd] else []) ++
        [.closed serverFd, .closed epollFd] := by
    rw [cleanupVpModule, h.serverFd_eq, h.epollFd_eq, if_pos hlistener]
    rfl
  rw [hcleanup, h.table_eq]
  unfold Clients.OnlyLatest
  have hsock := h.sockFd_eq
  cases hlatest : clients.latest with
  | none =>
      have hunset : vpm.sockFd = -1 := by rw [hsock, hlatest]; rfl
      rw [if_neg (not_not.mpr hunset), List.nil_append,
        replayCalls_cleanup_rest hapart hepoll hserver]
      exact Option.some_inj
  | some fd =>
      have hset : vpm.sockFd = fd := by rw [hsock, hlatest]; rfl
      obtain ⟨hfd, hnotEpoll, hnotServer⟩ := h.latest fd hlatest
      rw [hset, if_pos hfd, List.singleton_append]
      by_cases hopen : fd ∈ clients.connected
      · rw [replayCalls_closed (by simp [hopen]), erase_client hnotEpoll hnotServer,
          replayCalls_cleanup_rest hapart (fun hmem => hepoll (Finset.mem_of_mem_erase hmem))
            (fun hmem => hserver (Finset.mem_of_mem_erase hmem)), Option.some_inj]
        constructor
        · intro hempty
          rw [← Finset.insert_erase hopen, hempty]
          rfl
        · intro hsingle
          rw [hsingle, Finset.erase_singleton]
      · -- The client accepted last has hung up: its descriptor is closed again.
        have htwice : replayCalls (insert epollFd (insert serverFd clients.connected))
            (.closed fd :: [.closed serverFd, .closed epollFd]) = none := by
          rw [replayCalls, if_neg]
          simp [hnotEpoll, hnotServer, hopen]
        rw [htwice]
        refine iff_of_false nofun fun hsingle => hopen ?_
        rw [hsingle]
        exact Finset.mem_singleton_self fd

theorem tracks_created (hapart : epollFd ≠ serverFd) :
    Tracks epollFd serverFd { connected := ∅, latest := none }
      (createVpModule .server epollFd serverFd).1 {epollFd, serverFd} where
  isServer := rfl
  epollFd_eq := rfl
  serverFd_eq := rfl
  sockFd_eq := rfl
  table_eq := rfl
  apart := ⟨hapart, Finset.notMem_empty _, Finset.notMem_empty _⟩
  latest := nofun

/-! ## Clients -/

/-- The record and the table of a client, before and after the server has hung up. -/
def ClientTracks (epollFd fd : Int) (vpm : VpIpcModule) (table : Finset Int) : Prop :=
  vpm.type = .client ∧ vpm.epollFd = epollFd ∧ vpm.serverFd = -1 ∧
    ((vpm.sockFd = fd ∧ table = {epollFd, fd}) ∨ (vpm.sockFd = -1 ∧ table = {epollFd}))

theorem ClientTracks.event {copy : LibraryCopy} {fd : Int}
    (h : ClientTracks epollFd fd vpm table) (hapart : epollFd ≠ fd)
    {event : EpollEvent} (hadded : event.fd ∈ table ∧ event.fd ≠ vpm.epollFd)
    (hlive : (clientEvent copy vpm event).exited = false) :
    Replays (ClientTracks epollFd fd) table (clientEvent copy vpm event) := by
  obtain ⟨htype, hepoll, hserver, hsock | hgone⟩ := h
  · obtain ⟨hset, rfl⟩ := hsock
    have hreported : event.fd = vpm.sockFd := by
      have hmem := hadded.1
      simp only [Finset.mem_insert, Finset.mem_singleton] at hmem
      rcases hmem with hsame | hsame
      · exact absurd (hsame.trans hepoll.symm) hadded.2
      · exact hsame.trans hset.symm
    have hkept : ClientTracks epollFd fd vpm {epollFd, fd} :=
      ⟨htype, hepoll, hserver, Or.inl ⟨hset, rfl⟩⟩
    unfold clientEvent at hlive ⊢
    rw [if_neg (not_not.mpr hreported)] at hlive ⊢
    cases hrecv : event.recv with
    | error => simp [hrecv] at hlive
    | closed =>
        cases copy with
        | qemu => simp [hrecv] at hlive
        | systemC =>
            have herase : ({epollFd, fd} : Finset Int).erase fd = {epollFd} := by
              rw [Finset.erase_insert_of_ne hapart, Finset.erase_singleton]
              rfl
            refine ⟨⟨htype, hepoll, hserver, Or.inr ⟨rfl, ?_⟩⟩, ?_⟩
            · show ({epollFd, fd} : Finset Int).erase vpm.sockFd = {epollFd}
              rw [hset, herase]
            · exact replayCalls_closed (by simp [hset]) []
    | piece piece => exact ⟨hkept, rfl⟩
  · -- Only the `epoll` instance is open, and it does not report itself.
    obtain ⟨-, rfl⟩ := hgone
    exact absurd ((Finset.mem_singleton.mp hadded.1).trans hepoll.symm) hadded.2

theorem ClientTracks.waits {copy : LibraryCopy} {fd : Int}
    (h : ClientTracks epollFd fd vpm table) (hapart : epollFd ≠ fd)
    {batches : List (List EpollEvent)} (hkernel : KernelRun copy vpm table batches)
    (hlive : (vpWaitCalls copy vpm batches).exited = false) :
    Replays (ClientTracks epollFd fd) table (vpWaitCalls copy vpm batches) := by
  -- A client keeps no value along the batches.
  refine replays_waits (fun _ => ClientTracks epollFd fd) (fun _ _ => ())
    (fun {_ vpm table batch} h hreport hlive => ?_) () h hkernel hlive
  cases batch with
  | nil =>
      simp only [vpWait, h.1]
      exact ⟨h, rfl⟩
  | cons event others =>
      simp only [vpWait, h.1] at hlive ⊢
      exact h.event hapart (hreport.added event List.mem_cons_self) hlive

theorem ClientTracks.cleanup {fd : Int} (h : ClientTracks epollFd fd vpm table)
    (hfd : fd ≠ -1) (hapart : epollFd ≠ fd) :
    replayCalls table (cleanupVpModule vpm) = some ∅ := by
  obtain ⟨-, hepoll, hserver, ⟨hsock, rfl⟩ | ⟨hsock, rfl⟩⟩ := h
  · have herase : ({epollFd, fd} : Finset Int).erase fd = {epollFd} := by
      rw [Finset.erase_insert_of_ne hapart, Finset.erase_singleton]
      rfl
    simp only [cleanupVpModule, hsock, hserver, hepoll, ne_eq, hfd, not_false_eq_true, if_true,
      not_true_eq_false, if_false, List.nil_append, List.singleton_append]
    rw [replayCalls_closed (by simp), herase, replayCalls_closed (by simp),
      Finset.erase_singleton]
    rfl
  · simp only [cleanupVpModule, hsock, hserver, hepoll, ne_eq, not_true_eq_false, if_false,
      List.nil_append]
    rw [replayCalls_closed (by simp), Finset.erase_singleton]
    rfl

/-! ## The result -/

/-- Every descriptor of a module is closed exactly once in its life if and only if it is
a client, or a server of which the client accepted last is the only one connected at
the end (no client, if none was accepted). -/
theorem life_closed_once_iff (copy : LibraryCopy) (type : ModuleType) (epollFd fd : Int)
    (batches : List (List EpollEvent)) (hfd : 0 ≤ fd) (hapart : epollFd ≠ fd)
    (hkernel : KernelRun copy (createVpModule type epollFd fd).1 {epollFd, fd} batches)
    (hlive : (vpWaitCalls copy (createVpModule type epollFd fd).1 batches).exited = false) :
    ClosedOnce (lifeCalls copy type epollFd fd batches) ↔
      (type = .server → (clientsAfter fd batches).OnlyLatest) := by
  have hunset : fd ≠ -1 := by omega
  have hcreated : replayCalls ∅ (createVpModule type epollFd fd).2 = some {epollFd, fd} := by
    have hopened : insert fd (insert epollFd ∅) = ({epollFd, fd} : Finset Int) :=
      Finset.pair_comm fd epollFd
    cases type with
    | server => exact congrArg some hopened
    | client => exact congrArg some hopened
  unfold ClosedOnce lifeCalls
  rw [replayCalls_append, hcreated]
  show replayCalls {epollFd, fd} (_ ++ _) = some ∅ ↔ _
  cases type with
  | server =>
      obtain ⟨htracks, hreplay⟩ := (tracks_created hapart).waits hkernel hlive
      rw [replayCalls_append, hreplay]
      show replayCalls _ _ = some ∅ ↔ _
      rw [htracks.cleanup hunset]
      exact ⟨fun hlatest _ => hlatest, fun hlatest => hlatest rfl⟩
  | client =>
      have hstart : ClientTracks epollFd fd (createVpModule .client epollFd fd).1 {epollFd, fd} :=
        ⟨rfl, rfl, rfl, Or.inl ⟨rfl, rfl⟩⟩
      obtain ⟨htracks, hreplay⟩ := hstart.waits hapart hkernel hlive
      rw [replayCalls_append, hreplay]
      exact iff_of_true (htracks.cleanup hunset hapart) nofun

/-- The server whose listener is descriptor 4, as `create_vp_module` returns it. -/
def createdServer : VpIpcModule := (createVpModule .server 3 4).1

/-- A client connects, a second one connects, and the first one hangs up. -/
def olderClientLeaves : List (List EpollEvent) :=
  [[EpollEvent.connection createdServer 5], [EpollEvent.connection createdServer 6],
    [EpollEvent.input 5 .closed]]

theorem life_closed_once_older_client_leaves :
    ClosedOnce (lifeCalls .qemu .server 3 4 olderClientLeaves) := by
  refine (life_closed_once_iff .qemu .server 3 4 olderClientLeaves (by decide) (by decide)
    (by decide) (by decide)).mpr fun _ => ?_
  show ({5, 6} : Finset Int).erase 5 = {6}
  decide

/-- A client connects and hangs up. -/
def onlyClientLeaves : List (List EpollEvent) :=
  [[EpollEvent.connection createdServer 5], [EpollEvent.input 5 .closed]]

/-- Two clients connect. -/
def twoClientsStay : List (List EpollEvent) :=
  [[EpollEvent.connection createdServer 5], [EpollEvent.connection createdServer 6]]

/-- The descriptor of the only client is closed twice; that of the older of two clients
is still open at the end. -/
theorem descriptors_are_closed_twice_or_never :
    (KernelRun .qemu createdServer {3, 4} onlyClientLeaves ∧
      (vpWaitCalls .qemu createdServer onlyClientLeaves).exited = false ∧
      (lifeCalls .qemu .server 3 4 onlyClientLeaves).count (.closed 5) = 2 ∧
      ¬ClosedOnce (lifeCalls .qemu .server 3 4 onlyClientLeaves)) ∧
    (KernelRun .qemu createdServer {3, 4} twoClientsStay ∧
      (vpWaitCalls .qemu createdServer twoClientsStay).exited = false ∧
      replayCalls ∅ (lifeCalls .qemu .server 3 4 twoClientsStay) = some {5} ∧
      ¬ClosedOnce (lifeCalls .qemu .server 3 4 twoClientsStay)) := by
  exact ⟨⟨by decide, by decide, by decide, by decide⟩, by decide, by decide, by decide,
    by decide⟩

end Vpipc
end AislabVP
