import Mathlib.Data.List.TakeWhile
import Mathlib.Logic.Relation
import Mathlib.Tactic.Choose

/-!
# Two parties that answer each other

Two parties take messages from their queues, in order, and send a reply for each message
they answer.  Some messages are answerable for a party and some stop it.  Replies are
answerable, so they go on to be answered unless something stops the parties.

`Exchange` is such a system over any type of states.  It settles, that is, its runs are
finite and no reply is answered in them, exactly in the states that are `Calm`: what a
party meets before it is stopped contains no reply, and if it meets anything then the
other party will be stopped (`settles_iff_calm`).  When nothing stops either party, one
message is enough for a run without end (`Busy.endless`).
-/

namespace AislabVP
namespace Foundation

/-! ## Endless runs -/

section Endless

variable {State : Type*} {step : State → State → Prop} {invariant : State → Prop}

/-- Some run from the state never ends. -/
def EndlessFrom (step : State → State → Prop) (state : State) : Prop :=
  ∃ run : Nat → State, run 0 = state ∧ ∀ time, step (run time) (run (time + 1))

/-- A measure that every step decreases. -/
theorem not_endlessFrom_of_measure (measure : State → Nat)
    (hstep : ∀ state next, invariant state → step state next →
      invariant next ∧ measure next < measure state)
    {state : State} (hstart : invariant state) : ¬EndlessFrom step state := by
  rintro ⟨run, hzero, hrun⟩
  have hbound : ∀ time, invariant (run time) ∧ measure (run time) + time ≤ measure state := by
    intro time
    induction time with
    | zero =>
        rw [hzero]
        exact ⟨hstart, le_refl _⟩
    | succ time ih =>
        obtain ⟨hinvariant, hless⟩ := hstep _ _ ih.1 (hrun time)
        exact ⟨hinvariant, by omega⟩
  have hlate := (hbound (measure state + 1)).2
  omega

/-- A step that can always be followed by another one. -/
theorem endlessFrom_of_progress
    (hprogress : ∀ state, invariant state → ∃ next, step state next ∧ invariant next)
    {state : State} (hstart : invariant state) : EndlessFrom step state := by
  choose follow hfollow using hprogress
  let run : Nat → { state // invariant state } := fun time =>
    Nat.rec ⟨state, hstart⟩ (fun _ current =>
      ⟨follow current.1 current.2, (hfollow current.1 current.2).2⟩) time
  exact ⟨fun time => (run time).1, rfl, fun time => (hfollow (run time).1 (run time).2).1⟩

end Endless

/-! ## Exchanges -/

/-- The two parties. -/
inductive Party where
  | first
  | second
  deriving DecidableEq, Repr

/-- The other party. -/
def Party.peer : Party → Party
  | .first => .second
  | .second => .first

@[simp] theorem Party.peer_peer (party : Party) : party.peer.peer = party := by
  cases party <;> rfl

theorem Party.eq_or_eq_peer (party other : Party) : other = party ∨ other = party.peer := by
  cases party <;> cases other <;> simp [Party.peer]

/-- Two parties with a queue each.  A step of a party takes the first message of its
queue, which has to be answerable, and appends a reply to the queue of the other one. -/
structure Exchange (State Message : Type*) where
  queue : State → Party → List Message
  step : State → Party → State → Prop
  answerable : Party → Message → Bool
  isReply : Message → Bool
  taken : ∀ {state party next}, step state party next →
    ∃ message rest reply, queue state party = message :: rest ∧
      answerable party message = true ∧ isReply reply = true ∧
      queue next party = rest ∧ queue next party.peer = queue state party.peer ++ [reply]
  enabled : ∀ {state party message rest}, queue state party = message :: rest →
    answerable party message = true → ∃ next, step state party next
  reply_answerable : ∀ party message, isReply message = true → answerable party message = true

namespace Exchange

variable {State Message : Type*} (system : Exchange State Message)

/-- A step of either party. -/
def Next (state next : State) : Prop := ∃ party, system.step state party next

/-- The messages that a party meets before one that stops it. -/
def met (state : State) (party : Party) : List Message :=
  (system.queue state party).takeWhile (system.answerable party)

/-- All runs are finite, and no reply is answered in them. -/
structure Settles (state : State) : Prop where
  finite : ¬EndlessFrom system.Next state
  replyStays : ∀ later, Relation.ReflTransGen system.Next state later →
    ∀ party next message rest, system.step later party next →
      system.queue later party = message :: rest → system.isReply message = false

/-- No party meets a reply, and a party that meets something has a peer that will be
stopped. -/
def Calm (state : State) : Prop :=
  ∀ party, (∀ message ∈ system.met state party, system.isReply message = false) ∧
    (system.met state party ≠ [] →
      ∃ message ∈ system.queue state party.peer, system.answerable party.peer message = false)

/-- Nothing in the queues stops a party, and there is a message. -/
structure Busy (state : State) : Prop where
  answerable : ∀ party, ∀ message ∈ system.queue state party,
    system.answerable party message = true
  nonempty : ∃ party, system.queue state party ≠ []

variable {system} {state next : State} {party : Party}

/-- What stands behind a message that stops the party is never met. -/
theorem takeWhile_append_of_stop {accept : Message → Bool} {front : List Message}
    (hstop : ∃ message ∈ front, accept message = false) (back : List Message) :
    (front ++ back).takeWhile accept = front.takeWhile accept := by
  induction front with
  | nil =>
      rcases hstop with ⟨message, hmem, -⟩
      cases hmem
  | cons first rest ih =>
      by_cases hfirst : accept first = true
      · have hrest : ∃ message ∈ rest, accept message = false := by
          rcases hstop with ⟨message, hmem, hrefused⟩
          rcases List.mem_cons.mp hmem with hsame | hmem
          · rw [hsame, hfirst] at hrefused
            cases hrefused
          · exact ⟨message, hmem, hrefused⟩
        rw [List.cons_append, List.takeWhile_cons_of_pos hfirst,
          List.takeWhile_cons_of_pos hfirst, ih hrest]
      · rw [List.cons_append, List.takeWhile_cons_of_neg hfirst,
          List.takeWhile_cons_of_neg hfirst]

/-- A step from a calm state: the party has met its message, and the other party meets
what it met before. -/
theorem Calm.met_step (hcalm : system.Calm state) (hstep : system.step state party next) :
    ∃ message, system.met state party = message :: system.met next party ∧
      system.met next party.peer = system.met state party.peer := by
  obtain ⟨message, rest, reply, hqueue, hanswerable, -, hrest, hpeer⟩ := system.taken hstep
  have hmet : system.met state party = message :: system.met next party := by
    rw [met, met, hqueue, hrest, List.takeWhile_cons_of_pos hanswerable]
  have hstop := (hcalm party).2 (by rw [hmet]; exact List.cons_ne_nil _ _)
  refine ⟨message, hmet, ?_⟩
  rw [met, met, hpeer, takeWhile_append_of_stop hstop]

theorem calm_step (hcalm : system.Calm state) (hstep : system.step state party next) :
    system.Calm next := by
  obtain ⟨message, rest, reply, hqueue, hanswerable, -, hrest, hpeer⟩ := system.taken hstep
  obtain ⟨taken, hmet, hmetPeer⟩ := hcalm.met_step hstep
  intro other
  rcases party.eq_or_eq_peer other with hsame | hother
  · subst hsame
    constructor
    · intro later hlater
      exact (hcalm other).1 later (by rw [hmet]; exact List.mem_cons_of_mem _ hlater)
    · intro _
      -- What stops the peer is still in its queue, in front of the reply.
      rcases (hcalm other).2 (by rw [hmet]; exact List.cons_ne_nil _ _) with
        ⟨stop, hmem, hrefused⟩
      exact ⟨stop, by rw [hpeer]; exact List.mem_append_left _ hmem, hrefused⟩
  · subst hother
    rw [hmetPeer]
    refine ⟨(hcalm party.peer).1, fun hnonempty => ?_⟩
    rcases (hcalm party.peer).2 hnonempty with ⟨stop, hmem, hrefused⟩
    rw [Party.peer_peer] at hmem hrefused ⊢
    rw [hqueue] at hmem
    -- The message that was taken did not stop the party.
    rcases List.mem_cons.mp hmem with hsame | hmem
    · rw [hsame, hanswerable] at hrefused
      cases hrefused
    · exact ⟨stop, by rw [hrest]; exact hmem, hrefused⟩

theorem calm_reachable {later : State} (hcalm : system.Calm state)
    (hreach : Relation.ReflTransGen system.Next state later) : system.Calm later := by
  induction hreach with
  | refl => exact hcalm
  | tail _ hnext ih =>
      obtain ⟨party, hstep⟩ := hnext
      exact calm_step ih hstep

/-- From a calm state each step leaves one message fewer to be met. -/
theorem Calm.finite (hcalm : system.Calm state) : ¬EndlessFrom system.Next state := by
  refine not_endlessFrom_of_measure
    (fun state => (system.met state .first).length + (system.met state .second).length)
    (fun state next hstate hnext => ?_) hcalm
  obtain ⟨party, hstep⟩ := hnext
  refine ⟨calm_step hstate hstep, ?_⟩
  obtain ⟨message, hmet, hpeer⟩ := hstate.met_step hstep
  cases party with
  | first =>
      show (system.met next .first).length + (system.met next .second).length <
        (system.met state .first).length + (system.met state .second).length
      rw [hmet, show system.met next .second = system.met state .second from hpeer,
        List.length_cons]
      omega
  | second =>
      show (system.met next .first).length + (system.met next .second).length <
        (system.met state .first).length + (system.met state .second).length
      rw [hmet, show system.met next .first = system.met state .first from hpeer,
        List.length_cons]
      omega

/-- A reply that a party meets is answered in some run, by induction on what stands in
front of it. -/
theorem reply_answered_of_front {front rest : List Message} {reply : Message}
    (hqueue : system.queue state party = front ++ reply :: rest)
    (hfront : ∀ message ∈ front, system.answerable party message = true)
    (hreply : system.isReply reply = true) :
    ∃ later last others, Relation.ReflTransGen system.Next state later ∧
      system.step later party last ∧ system.queue later party = reply :: others := by
  induction front generalizing state rest with
  | nil =>
      obtain ⟨last, hstep⟩ := system.enabled hqueue (system.reply_answerable party reply hreply)
      exact ⟨state, last, rest, .refl, hstep, hqueue⟩
  | cons message front ih =>
      rw [List.forall_mem_cons] at hfront
      obtain ⟨next, hstep⟩ := system.enabled hqueue hfront.1
      obtain ⟨taken, others, _, hsplit, -, -, hnext, -⟩ := system.taken hstep
      rw [hqueue] at hsplit
      obtain ⟨-, rfl⟩ := List.cons.inj hsplit
      obtain ⟨later, last, behind, hreach, hlast, hhead⟩ := ih hnext hfront.2
      exact ⟨later, last, behind, .head ⟨party, hstep⟩ hreach, hlast, hhead⟩

/-- What stands in front of a message that a party meets does not stop the party. -/
theorem queue_split_of_mem_met {message : Message} (hmem : message ∈ system.met state party) :
    ∃ front behind, system.queue state party = front ++ message :: behind ∧
      ∀ earlier ∈ front, system.answerable party earlier = true := by
  obtain ⟨front, back, hmet⟩ := List.append_of_mem hmem
  refine ⟨front, back ++ (system.queue state party).dropWhile (system.answerable party), ?_, ?_⟩
  · rw [← List.cons_append, ← List.append_assoc, ← hmet, met, List.takeWhile_append_dropWhile]
  · intro earlier hearlier
    have hmemMet : earlier ∈ system.met state party := by
      rw [hmet]
      exact List.mem_append_left _ hearlier
    exact List.mem_takeWhile_imp hmemMet

/-- A party that meets something can answer the first message of its queue. -/
theorem queue_head_of_met (hnonempty : system.met state party ≠ []) :
    ∃ message rest, system.queue state party = message :: rest ∧
      system.answerable party message = true := by
  obtain ⟨message, behind, hmet⟩ := List.exists_cons_of_ne_nil hnonempty
  refine ⟨message, behind ++ (system.queue state party).dropWhile (system.answerable party), ?_,
    List.mem_takeWhile_imp (by rw [← met, hmet]; exact List.mem_cons_self)⟩
  rw [← List.cons_append, ← hmet, met, List.takeWhile_append_dropWhile]

/-- A party that met a reply would answer it; and where nothing stops the peer of a party
that meets something, the peer answers the reply to that. -/
theorem Settles.calm (hsettles : system.Settles state) : system.Calm state := by
  intro party
  constructor
  · intro reply hmem
    by_contra hnotStays
    have hreply : system.isReply reply = true := by simpa using hnotStays
    obtain ⟨front, behind, hqueue, hfront⟩ := queue_split_of_mem_met hmem
    obtain ⟨later, last, others, hreach, hstep, hhead⟩ :=
      reply_answered_of_front hqueue hfront hreply
    exact hnotStays (hsettles.replyStays later hreach party last reply others hstep hhead)
  · intro hnonempty
    by_contra hnostop
    have hpeer : ∀ message ∈ system.queue state party.peer,
        system.answerable party.peer message = true := by
      intro message hmem
      by_contra hrefused
      exact hnostop ⟨message, hmem, by simpa using hrefused⟩
    obtain ⟨message, rest, hhead, hanswerable⟩ := queue_head_of_met hnonempty
    obtain ⟨next, hstep⟩ := system.enabled hhead hanswerable
    obtain ⟨_, _, reply, -, -, hreply, -, hreplyQueue⟩ := system.taken hstep
    obtain ⟨later, last, others, hreach, hlast, hreplyHead⟩ :=
      reply_answered_of_front hreplyQueue hpeer hreply
    have hstays := hsettles.replyStays later (.head ⟨party, hstep⟩ hreach) party.peer last
      reply others hlast hreplyHead
    rw [hreply] at hstays
    cases hstays

/-- In a run from a calm state only messages are taken that a party meets in a calm state. -/
theorem Calm.settles (hcalm : system.Calm state) : system.Settles state where
  finite := hcalm.finite
  replyStays := by
    intro later hreach party next message rest hstep hqueue
    refine (calm_reachable hcalm hreach party).1 message ?_
    obtain ⟨_, _, _, hsplit, hanswerable, -⟩ := system.taken hstep
    rw [hqueue] at hsplit
    obtain ⟨rfl, -⟩ := List.cons.inj hsplit
    rw [met, hqueue, List.takeWhile_cons_of_pos hanswerable]
    exact List.mem_cons_self

/-- A system settles exactly in its calm states. -/
theorem settles_iff_calm : system.Settles state ↔ system.Calm state :=
  ⟨Settles.calm, Calm.settles⟩

/-- A busy exchange goes on for ever. -/
theorem Busy.endless (hbusy : system.Busy state) : EndlessFrom system.Next state := by
  refine endlessFrom_of_progress (fun state hstate => ?_) hbusy
  obtain ⟨hall, party, hnonempty⟩ := hstate
  obtain ⟨message, rest, hqueue⟩ := List.exists_cons_of_ne_nil hnonempty
  have hhead := hall party message (by rw [hqueue]; exact List.mem_cons_self)
  obtain ⟨next, hstep⟩ := system.enabled hqueue hhead
  obtain ⟨taken, behind, reply, hsplit, -, hreply, hnext, hpeer⟩ := system.taken hstep
  refine ⟨next, ⟨party, hstep⟩, fun other later hlater => ?_, party.peer, ?_⟩
  · rcases party.eq_or_eq_peer other with hsame | hother
    · subst hsame
      rw [hnext] at hlater
      exact hall other later (by rw [hsplit]; exact List.mem_cons_of_mem _ hlater)
    · subst hother
      rw [hpeer] at hlater
      rcases List.mem_append.mp hlater with hold | hnew
      · exact hall party.peer later hold
      · rw [List.mem_singleton.mp hnew]
        exact system.reply_answerable party.peer reply hreply
  · rw [hpeer]
    exact List.append_ne_nil_of_right_ne_nil _ (List.cons_ne_nil _ _)

end Exchange

end Foundation
end AislabVP
