import Ditlang.Proofs.Guest.Owed
import Ditlang.Proofs.Guest.Submission

/-!
# Ditlang.Proofs.Guest.Reports

The report that a worker process has exited. The handle makes it while it waits for the answer to a
submission. It names a Lang and no job, and it is taken by the daemon at some later time, when the
submission may have been answered and the next one may be on its way.

An `Exchange` is the handle and the daemon with the queue of requests between them. Its steps are
those of the handle and those of the daemon in any order; the daemon takes requests in the order in
which they were made, and connections and events whenever they come.

* `Orderly`: the requests stand in the order of their submissions, behind the job that is pending, and
  a submission without an answer is the one that the handle waits for, unless the handle has given it
  up. `Step.orderly` keeps it.
* `Reached.settled_by_report`: when a report comes up in the queue, the pending job is the one for which
  it was made, or none, or one that was given up before. So it never settles a later job.
* `Fleet.submit_steps`: a submission to the fleet is such a sequence of steps, and everything that is
  done with a fleet keeps it where such steps lead (`Fleet.Exchanged`).
-/

namespace Ditlang
namespace Guest

/-- What the handle asks of the daemon. A report says only which Lang; beside it stands the submission
that the handle was waiting for. -/
inductive Request where
  | submit (job : Job) (ticket : Nat)
  | exited (lang : String) (awaited : Nat)
  | shutdown

namespace Request

def ticket? : Request → Option Nat
  | submit _ ticket => some ticket
  | exited _ awaited => some awaited
  | shutdown => none

def brings? : Request → Option Nat
  | submit _ ticket => some ticket
  | exited _ _ | shutdown => none

variable (job : Job) (lang : String) (ticket : Nat)

@[simp] theorem ticket?_submit : (submit job ticket).ticket? = some ticket := rfl
@[simp] theorem ticket?_exited : (exited lang ticket).ticket? = some ticket := rfl
@[simp] theorem ticket?_shutdown : shutdown.ticket? = none := rfl
@[simp] theorem brings?_submit : (submit job ticket).brings? = some ticket := rfl
@[simp] theorem brings?_exited : (exited lang ticket).brings? = none := rfl
@[simp] theorem brings?_shutdown : shutdown.brings? = none := rfl

end Request

/-- What the handle is at. -/
inductive Phase where
  | idle
  | waiting (ticket : Nat) (lang : String) (reported : Bool)
  | stopped

/-- The handle and the daemon, and what is between them. -/
structure Exchange where
  loop : Loop := {}
  /-- The requests that the daemon has not taken yet, oldest first. -/
  queue : List Request := []
  phase : Phase := .idle
  tickets : Nat := 0
  /-- The submissions that the handle does not wait for any more, because it could not find out
  whether the worker has exited. -/
  givenUp : List Nat := []
  ended : Bool := false

namespace Exchange

/-- A step of the handle or of the daemon. After each of its own steps the daemon writes the pending
job if it can; `write` says why a line could not be written. -/
inductive Step (x : Exchange) : Exchange → Prop where
  | submit (job : Job) : x.phase = .idle →
      Step x { x with
        queue := x.queue ++ [.submit job x.tickets]
        phase := .waiting x.tickets job.lang false
        tickets := x.tickets + 1 }
  | report {ticket : Nat} {lang : String} : x.phase = .waiting ticket lang false →
      Step x { x with
        queue := x.queue ++ [.exited lang ticket], phase := .waiting ticket lang true }
  | giveUp {ticket : Nat} {lang : String} : x.phase = .waiting ticket lang false →
      Step x { x with phase := .idle, givenUp := ticket :: x.givenUp }
  | receive {ticket : Nat} {lang : String} {reported : Bool} {a : Answer} :
      x.phase = .waiting ticket lang reported → (ticket, a) ∈ x.loop.replies →
      Step x { x with phase := .idle }
  | stop : x.phase = .idle → Step x { x with queue := x.queue ++ [.shutdown], phase := .stopped }
  | takeJob {job : Job} {ticket : Nat} {rest : List Request} (write : Nat → String → Option String) :
      x.ended = false → x.queue = .submit job ticket :: rest →
      Step x { x with loop := (x.loop.submit job ticket).dispatch write, queue := rest }
  | takeReport {lang : String} {awaited : Nat} {rest : List Request}
      (write : Nat → String → Option String) :
      x.ended = false → x.queue = .exited lang awaited :: rest →
      Step x { x with loop := (x.loop.workerExited lang).dispatch write, queue := rest }
  | takeShutdown {rest : List Request} : x.ended = false → x.queue = .shutdown :: rest →
      Step x { x with loop := x.loop.teardown.2, queue := rest, ended := true }
  | accept (write : Nat → String → Option String) : x.ended = false →
      Step x { x with loop := x.loop.accept.2.dispatch write }
  | event (e : Event) (write : Nat → String → Option String) : x.ended = false →
      Step x { x with loop := (x.loop.handle e).dispatch write }

abbrev Steps : Exchange → Exchange → Prop := Relation.ReflTransGen Step

/-- The exchanges that steps lead to. -/
def Reached (x : Exchange) : Prop := Steps {} x

/-- The submissions that the requests in the queue are about. -/
def inFlight (x : Exchange) : List Nat :=
  x.queue.filterMap Request.ticket?

/-- The submissions in the queue. -/
def brought (x : Exchange) : List Nat :=
  x.queue.filterMap Request.brings?

end Exchange

namespace Loop

variable {s t u : Loop} {p : Pending}

/-! ## What the daemon may have answered -/

/-- Between `s` and `t` at most the pending job was answered. -/
structure Follows (s t : Loop) : Prop where
  tickets : t.tickets = s.tickets
  pending : ∀ q, t.pending = some q → ∃ p, s.pending = some p ∧ q.ticket = p.ticket
  replies : ∀ r ∈ t.replies, r ∈ s.replies ∨ ∃ p, s.pending = some p ∧ r.1 = p.ticket
  kept : ∀ r ∈ s.replies, r ∈ t.replies

theorem Follows.trans (hst : s.Follows t) (htu : t.Follows u) : s.Follows u := by
  refine ⟨htu.tickets.trans hst.tickets, ?_, ?_, fun r hr => htu.kept r (hst.kept r hr)⟩
  · intro q hq
    obtain ⟨p, hp, hqp⟩ := htu.pending q hq
    obtain ⟨o, ho, hpo⟩ := hst.pending p hp
    exact ⟨o, ho, hqp.trans hpo⟩
  · intro r hr
    rcases htu.replies r hr with hr | ⟨p, hp, hrp⟩
    · exact hst.replies r hr
    · obtain ⟨o, ho, hpo⟩ := hst.pending p hp
      exact .inr ⟨o, ho, hrp.trans hpo⟩

theorem Turn.follows (ht : Turn s t) (htickets : t.tickets = s.tickets) : s.Follows t := by
  cases ht with
  | keeps hreplies hpending =>
    refine ⟨htickets, ?_, ?_, fun r hr => hreplies ▸ hr⟩
    · intro q hq
      obtain ⟨p, hp, hticket, -⟩ := hpending q hq
      exact ⟨p, hp, hticket⟩
    · intro r hr
      exact .inl (hreplies ▸ hr)
  | @answers p a hp hnone hreplies =>
    refine ⟨htickets, ?_, ?_, ?_⟩
    · intro q hq
      rw [hnone] at hq
      cases hq
    · intro r hr
      rw [hreplies] at hr
      rcases List.mem_append.1 hr with hr | hr
      · exact .inl hr
      · rw [List.mem_singleton.1 hr]
        exact .inr ⟨p, hp, rfl⟩
    · intro r hr
      rw [hreplies]
      exact List.mem_append_left _ hr

theorem exists_pending_of_outgoing? {key : Nat} {job : Job} (ho : s.outgoing? = some (key, job)) :
    ∃ p, s.pending = some p := by
  cases hp : s.pending with
  | none => simp [outgoing?_of_pending hp] at ho
  | some p => exact ⟨p, rfl⟩

theorem turn_dispatch (s : Loop) (write : Nat → String → Option String) :
    Turn s (s.dispatch write) := by
  unfold dispatch
  split
  · exact .refl s
  · rename_i key job ho
    obtain ⟨p, hp⟩ := exists_pending_of_outgoing? ho
    split
    · exact turn_written s
    · exact turn_unwritten hp key job _

theorem follows_dispatch (s : Loop) (write : Nat → String → Option String) :
    s.Follows (s.dispatch write) :=
  (turn_dispatch s write).follows (tickets_dispatch s write)

theorem follows_handle (s : Loop) (e : Event) : s.Follows (s.handle e) :=
  (turn_handle s e).follows (tickets_handle s e)

theorem follows_workerExited (s : Loop) (lang : String) : s.Follows (s.workerExited lang) :=
  (turn_workerExited s lang).follows (tickets_workerExited s lang)

theorem follows_accept (s : Loop) : s.Follows s.accept.2 := by
  have hturn : s.Turn s.accept.2 := .congr (.refl s) rfl rfl
  exact hturn.follows rfl

theorem follows_teardown (s : Loop) : s.Follows s.teardown.2 := by
  have hpending : s.teardown.2.pending = none := by
    unfold teardown
    dsimp only
    split
    · assumption
    · rfl
  have hreplies : s.teardown.2.replies = s.replies ∨ ∃ p a, s.pending = some p ∧
      s.teardown.2.replies = s.replies ++ [(p.ticket, a)] := by
    unfold teardown
    dsimp only
    split
    · exact .inl rfl
    · rename_i p hp
      exact .inr ⟨p, _, hp, rfl⟩
  refine ⟨?_, ?_, ?_, ?_⟩
  · rw [← replies_teardown s, tickets, hpending, Option.map_none, Option.toList_none,
      List.append_nil]
  · intro q hq
    rw [hpending] at hq
    cases hq
  · intro r hr
    rcases hreplies with he | ⟨p, a, hp, he⟩ <;> rw [he] at hr
    · exact .inl hr
    · rcases List.mem_append.1 hr with hr | hr
      · exact .inl hr
      · rw [List.mem_singleton.1 hr]
        exact .inr ⟨p, hp, rfl⟩
  · intro r hr
    rcases hreplies with he | ⟨p, a, -, he⟩ <;> rw [he]
    · exact hr
    · exact List.mem_append_left _ hr

theorem submit_spec (s : Loop) (job : Job) (ticket : Nat) :
    (∀ q, (s.submit job ticket).pending = some q →
      q.ticket = ticket ∨ ∃ p, s.pending = some p ∧ q.ticket = p.ticket) ∧
    ∀ r ∈ s.replies, r ∈ (s.submit job ticket).replies := by
  cases hp : s.pending with
  | some p =>
    rw [submit_of_pending (by rw [hp]; rfl)]
    refine ⟨fun q hq => .inr ⟨p, rfl, ?_⟩, fun r hr => List.mem_append_left _ hr⟩
    rw [Option.some.inj (hp.symm.trans hq)]
  | none =>
    rw [submit, if_neg (by simp [hp])]
    dsimp only
    split
    · refine ⟨fun q hq => ?_, fun r hr => ?_⟩
      · rw [pending_lose] at hq
        cases hq
      · exact List.mem_append_left _ hr
    · refine ⟨fun q hq => .inl ?_, fun r hr => hr⟩
      cases hq
      rfl

theorem ticket_mem_tickets (hp : s.pending = some p) : p.ticket ∈ s.tickets := by
  simp [tickets, hp]

end Loop

namespace Exchange

variable {x y : Exchange}

/-! ## The order of requests -/

/-- What holds at any time between the handle and the daemon. -/
structure Orderly (x : Exchange) : Prop where
  /-- Every submission is answered, or pending, or in the queue, and only one of these. -/
  tickets : (x.loop.tickets ++ x.brought).Perm (List.range x.tickets)
  sorted : x.inFlight.Pairwise (· ≤ ·)
  ahead : ∀ p, x.loop.pending = some p → ∀ k ∈ x.inFlight, p.ticket ≤ k
  bound : ∀ k ∈ x.inFlight, k < x.tickets
  last : ∀ k lang reported, x.phase = .waiting k lang reported → x.tickets = k + 1
  awaited : ∀ k < x.tickets, k ∈ x.loop.replies.map Prod.fst ∨ k ∈ x.givenUp ∨
    ∃ lang reported, x.phase = .waiting k lang reported

namespace Orderly

theorem start : Orderly {} := by
  refine ⟨.refl _, .nil, ?_, ?_, ?_, ?_⟩
  · intro p hp
    cases hp
  · intro k hk
    cases hk
  · intro k lang reported hk
    cases hk
  · intro k hk
    cases hk

theorem ticket_lt (ho : x.Orderly) {p : Pending} (hp : x.loop.pending = some p) :
    p.ticket < x.tickets :=
  List.mem_range.1 (ho.tickets.subset (List.mem_append_left _ (Loop.ticket_mem_tickets hp)))

theorem notMem_replies (ho : x.Orderly) {p : Pending} (hp : x.loop.pending = some p) :
    p.ticket ∉ x.loop.replies.map Prod.fst := by
  intro hm
  have hnodup : x.loop.tickets.Nodup :=
    (List.nodup_append.1 (ho.tickets.nodup_iff.2 List.nodup_range)).1
  rw [Loop.tickets, hp] at hnodup
  exact (List.nodup_append.1 hnodup).2.2 _ hm p.ticket (by simp) rfl

theorem follows (ho : x.Orderly) {t : Loop} (hf : x.loop.Follows t) :
    Orderly { x with loop := t } := by
  refine ⟨?_, ho.sorted, ?_, ho.bound, ho.last, ?_⟩
  · show (t.tickets ++ x.brought).Perm _
    rw [hf.tickets]
    exact ho.tickets
  · intro q hq k hk
    obtain ⟨p, hp, hqp⟩ := hf.pending q hq
    rw [hqp]
    exact ho.ahead p hp k hk
  · intro k hk
    rcases ho.awaited k hk with hm | hrest
    · obtain ⟨r, hr, rfl⟩ := List.mem_map.1 hm
      exact .inl (List.mem_map_of_mem (hf.kept r hr))
    · exact .inr hrest

/-- A request that brings no submission is taken off the queue. -/
theorem dequeue (ho : x.Orderly) {r : Request} {rest : List Request} (hq : x.queue = r :: rest)
    (hr : r.brings? = none) : Orderly { x with queue := rest } := by
  have hsub : (rest.filterMap Request.ticket?).Sublist x.inFlight := by
    rw [inFlight, hq]
    exact (List.sublist_cons_self r rest).filterMap _
  refine ⟨?_, ho.sorted.sublist hsub, ?_, fun k hk => ho.bound k (hsub.subset hk), ho.last,
    ho.awaited⟩
  · have hb : x.brought = rest.filterMap Request.brings? := by
      rw [brought, hq, List.filterMap_cons_none hr]
    have ht := ho.tickets
    rw [hb] at ht
    exact ht
  · intro p hp k hk
    exact ho.ahead p hp k (hsub.subset hk)

theorem takeJob (ho : x.Orderly) {job : Job} {ticket : Nat} {rest : List Request}
    (hq : x.queue = .submit job ticket :: rest) :
    Orderly { x with loop := x.loop.submit job ticket, queue := rest } := by
  obtain ⟨hpending, hkept⟩ := x.loop.submit_spec job ticket
  have hflight : x.inFlight = ticket :: rest.filterMap Request.ticket? := by
    rw [inFlight, hq]
    rfl
  have hbrought : x.brought = ticket :: rest.filterMap Request.brings? := by
    rw [brought, hq]
    rfl
  have hsorted := ho.sorted
  rw [hflight, List.pairwise_cons] at hsorted
  refine ⟨?_, hsorted.2, ?_, ?_, ho.last, ?_⟩
  · have hmoved := (Loop.tickets_submit x.loop job ticket).append_right
      (rest.filterMap Request.brings?)
    rw [List.append_assoc, List.singleton_append, ← hbrought] at hmoved
    exact hmoved.trans ho.tickets
  · intro q hq' k hk
    rcases hpending q hq' with he | ⟨p, hp, he⟩
    · rw [he]
      exact hsorted.1 k hk
    · rw [he]
      exact ho.ahead p hp k (hflight ▸ List.mem_cons_of_mem _ hk)
  · intro k hk
    exact ho.bound k (hflight ▸ List.mem_cons_of_mem _ hk)
  · intro k hk
    rcases ho.awaited k hk with hm | hrest
    · obtain ⟨r, hr, rfl⟩ := List.mem_map.1 hm
      exact .inl (List.mem_map_of_mem (hkept r hr))
    · exact .inr hrest

theorem sorted_append (ho : x.Orderly) {k n : Nat} (hk : x.tickets ≤ k + 1) (hn : k < n)
    (hx : x.tickets ≤ n) :
    (x.inFlight ++ [k]).Pairwise (· ≤ ·) ∧
      (∀ p, x.loop.pending = some p → ∀ j ∈ x.inFlight ++ [k], p.ticket ≤ j) ∧
      ∀ j ∈ x.inFlight ++ [k], j < n := by
  refine ⟨List.pairwise_append.2 ⟨ho.sorted, List.pairwise_singleton _ _, ?_⟩, ?_, ?_⟩
  · intro j hj i hi
    have := ho.bound j hj
    rw [List.mem_singleton.1 hi]
    omega
  · intro p hp j hj
    rcases List.mem_append.1 hj with hj | hj
    · exact ho.ahead p hp j hj
    · have := ho.ticket_lt hp
      rw [List.mem_singleton.1 hj]
      omega
  · intro j hj
    rcases List.mem_append.1 hj with hj | hj
    · have := ho.bound j hj
      omega
    · rw [List.mem_singleton.1 hj]
      exact hn

end Orderly

theorem Step.orderly (hs : x.Step y) (ho : x.Orderly) : y.Orderly := by
  cases hs with
  | submit job hphase =>
    obtain ⟨hsorted, hahead, hbound⟩ :=
      ho.sorted_append (k := x.tickets) (n := x.tickets + 1) (by omega) (by omega) (by omega)
    refine ⟨?_, ?_, ?_, ?_, ?_, ?_⟩
    · show (x.loop.tickets ++ (x.queue ++ _).filterMap Request.brings?).Perm _
      rw [List.filterMap_append, ← List.append_assoc, List.range_succ]
      exact ho.tickets.append_right _
    · simpa [inFlight] using hsorted
    · simpa [inFlight] using hahead
    · simpa [inFlight] using hbound
    · intro k lang reported hk
      cases hk
      rfl
    · intro k hk
      have hk' : k < x.tickets ∨ k = x.tickets := by
        have : k < x.tickets + 1 := hk
        omega
      rcases hk' with hk' | rfl
      · rcases ho.awaited k hk' with hm | hm | ⟨lang, reported, hm⟩
        · exact .inl hm
        · exact .inr (.inl hm)
        · rw [hphase] at hm
          cases hm
      · exact .inr (.inr ⟨_, _, rfl⟩)
  | @report ticket lang hphase =>
    have hlast := ho.last ticket lang false hphase
    obtain ⟨hsorted, hahead, hbound⟩ :=
      ho.sorted_append (k := ticket) (n := x.tickets) (by omega) (by omega) (by omega)
    refine ⟨?_, ?_, ?_, ?_, ?_, ?_⟩
    · show (x.loop.tickets ++ (x.queue ++ _).filterMap Request.brings?).Perm _
      rw [List.filterMap_append]
      simpa [brought, List.filterMap_cons] using ho.tickets
    · simpa [inFlight] using hsorted
    · simpa [inFlight] using hahead
    · simpa [inFlight] using hbound
    · intro k l reported hk
      cases hk
      exact hlast
    · intro k hk
      rcases ho.awaited k hk with hm | hm | ⟨l, reported, hm⟩
      · exact .inl hm
      · exact .inr (.inl hm)
      · cases hphase.symm.trans hm
        exact .inr (.inr ⟨_, _, rfl⟩)
  | @giveUp ticket lang hphase =>
    refine ⟨ho.tickets, ho.sorted, ho.ahead, ho.bound, ?_, ?_⟩
    · intro k l reported hk
      cases hk
    · intro k hk
      rcases ho.awaited k hk with hm | hm | ⟨l, reported, hm⟩
      · exact .inl hm
      · exact .inr (.inl (List.mem_cons_of_mem _ hm))
      · cases hphase.symm.trans hm
        exact .inr (.inl List.mem_cons_self)
  | @receive ticket lang reported a hphase hanswer =>
    refine ⟨ho.tickets, ho.sorted, ho.ahead, ho.bound, ?_, ?_⟩
    · intro k l r hk
      cases hk
    · intro k hk
      rcases ho.awaited k hk with hm | hm | ⟨l, r, hm⟩
      · exact .inl hm
      · exact .inr (.inl hm)
      · cases hphase.symm.trans hm
        exact .inl (List.mem_map_of_mem hanswer)
  | stop hphase =>
    refine ⟨?_, ?_, ?_, ?_, ?_, ?_⟩
    · show (x.loop.tickets ++ (x.queue ++ _).filterMap Request.brings?).Perm _
      rw [List.filterMap_append]
      simpa [brought, List.filterMap_cons] using ho.tickets
    · simpa [inFlight, List.filterMap_cons] using ho.sorted
    · simpa [inFlight, List.filterMap_cons] using ho.ahead
    · simpa [inFlight, List.filterMap_cons] using ho.bound
    · intro k l r hk
      cases hk
    · intro k hk
      rcases ho.awaited k hk with hm | hm | ⟨l, r, hm⟩
      · exact .inl hm
      · exact .inr (.inl hm)
      · rw [hphase] at hm
        cases hm
  | takeJob write _ hq => exact (ho.takeJob hq).follows (Loop.follows_dispatch _ write)
  | @takeReport lang awaited rest write _ hq =>
    exact (ho.dequeue hq rfl).follows
      ((Loop.follows_workerExited _ lang).trans (Loop.follows_dispatch _ write))
  | takeShutdown _ hq =>
    have hf := (ho.dequeue hq rfl).follows (Loop.follows_teardown _)
    exact ⟨hf.tickets, hf.sorted, hf.ahead, hf.bound, hf.last, hf.awaited⟩
  | accept write => exact ho.follows ((Loop.follows_accept _).trans (Loop.follows_dispatch _ write))
  | event e write =>
    exact ho.follows ((Loop.follows_handle _ e).trans (Loop.follows_dispatch _ write))

theorem Steps.orderly (hs : x.Steps y) (ho : x.Orderly) : y.Orderly := by
  induction hs with
  | refl => exact ho
  | tail _ hs ih => exact hs.orderly ih

theorem Reached.orderly (hx : x.Reached) : x.Orderly :=
  Steps.orderly hx .start

/-! ## Reports -/

/-- When a report comes up, the pending job is the one that was waited for, or an earlier one that
was given up. -/
theorem Orderly.pending_at_report (ho : x.Orderly) {lang : String} {awaited : Nat}
    {rest : List Request} (hq : x.queue = .exited lang awaited :: rest) {p : Pending}
    (hp : x.loop.pending = some p) :
    p.ticket = awaited ∨ p.ticket < awaited ∧ p.ticket ∈ x.givenUp := by
  have hmem : awaited ∈ x.inFlight := by
    rw [inFlight, hq]
    exact List.mem_cons_self
  have hle := ho.ahead p hp awaited hmem
  have hlt := ho.bound awaited hmem
  by_cases he : p.ticket = awaited
  · exact .inl he
  · -- the handle has gone on to a later submission
    rcases ho.awaited p.ticket (ho.ticket_lt hp) with hm | hm | ⟨l, reported, hm⟩
    · exact absurd hm (ho.notMem_replies hp)
    · exact .inr ⟨by omega, hm⟩
    · have := ho.last _ _ _ hm
      omega

/-- What the daemon does at a report that comes up in the queue. -/
theorem Reached.settled_by_report (hx : x.Reached) {lang : String} {awaited : Nat}
    {rest : List Request} (hq : x.queue = .exited lang awaited :: rest)
    (write : Nat → String → Option String) :
    (∀ r ∈ ((x.loop.workerExited lang).dispatch write).replies, r ∈ x.loop.replies ∨ r.1 = awaited ∨
      r.1 < awaited ∧ r.1 ∈ x.givenUp) ∧
    (awaited ∈ x.loop.replies.map Prod.fst → (x.loop.workerExited lang).dispatch write = x.loop ∨
      ∃ p, x.loop.pending = some p ∧ p.ticket < awaited ∧ p.ticket ∈ x.givenUp) := by
  have ho := hx.orderly
  constructor
  · intro r hr
    have hf := (x.loop.follows_workerExited lang).trans (Loop.follows_dispatch _ write)
    rcases hf.replies r hr with hold | ⟨p, hp, he⟩
    · exact .inl hold
    · rw [he]
      exact .inr (ho.pending_at_report hq hp)
  · intro hm
    cases hp : x.loop.pending with
    | none =>
      left
      have hsame : x.loop.workerExited lang = x.loop := by
        unfold Loop.workerExited
        rw [hp]
      rw [hsame, Loop.dispatch, Loop.outgoing?_of_pending hp]
    | some p =>
      rcases ho.pending_at_report hq hp with he | ⟨hlt, hgiven⟩
      · exact absurd (he ▸ hm) (ho.notMem_replies hp)
      · exact .inr ⟨p, rfl, hlt, hgiven⟩

end Exchange

/-! ## The fleet takes such steps -/

namespace Loop

variable {s : Loop}

/-- What has been written, or could not be, is not written again. -/
theorem outgoing?_dispatch (s : Loop) (write : Nat → String → Option String) :
    (s.dispatch write).outgoing? = none := by
  unfold dispatch
  split
  · assumption
  · rename_i key job ho
    obtain ⟨p, hp⟩ := exists_pending_of_outgoing? ho
    split
    · refine outgoing?_of_active (p := { p with job := { p.job with active := true }, heard := false })
        ?_ rfl
      simp [written, modifyPending, hp]
    · exact outgoing?_of_pending (pending_unwritten s key job _)

theorem dispatch_of_outgoing? (ho : s.outgoing? = none) (write : Nat → String → Option String) :
    s.dispatch write = s := by
  rw [dispatch, ho]

theorem outgoing?_workerExited (ho : s.outgoing? = none) (lang : String) :
    (s.workerExited lang).outgoing? = none := by
  unfold workerExited
  split
  · split
    · exact outgoing?_of_pending (pending_crash s _)
    · exact ho
  · exact ho

end Loop

namespace Fleet

variable {f g : Fleet} {x : Exchange}

theorem loop_dispatch (f : Fleet) : ∃ write, f.dispatch.loop = f.loop.dispatch write := by
  unfold dispatch
  cases ho : f.loop.outgoing? with
  | none => exact ⟨fun _ _ => none, (Loop.dispatch_of_outgoing? ho _).symm⟩
  | some out =>
    obtain ⟨key, job⟩ := out
    dsimp only
    split
    · refine ⟨fun _ _ => none, ?_⟩
      simp [Loop.dispatch, ho]
    · refine ⟨fun _ _ => some "Broken pipe (os error 32)", ?_⟩
      simp [Loop.dispatch, ho]

theorem tickets_dispatch (f : Fleet) : f.dispatch.tickets = f.tickets := by
  unfold dispatch
  split
  · rfl
  · split <;> rfl

theorem Act.steps (ha : Act f g) (hx : x.loop = f.loop) (ho : f.loop.outgoing? = none)
    (hended : x.ended = false) :
    x.Steps { x with loop := g.loop } ∧ g.loop.outgoing? = none ∧ g.tickets = f.tickets := by
  have hnotice : ∀ (y : Exchange) (f' : Fleet) (e : Event), y.loop = f'.loop → y.ended = false →
      y.Step { y with loop := (f'.notice e).loop } ∧ (f'.notice e).loop.outgoing? = none ∧
        (f'.notice e).tickets = f'.tickets := by
    intro y f' e hy hend
    obtain ⟨write, hw⟩ := loop_dispatch
      { f' with loop := f'.loop.handle e, talk := f'.talk ++ (f'.loop.taken? e).toList }
    refine ⟨?_, ?_, tickets_dispatch _⟩
    · have hs := Exchange.Step.event e write hend
      rw [hy, ← hw] at hs
      exact hs
    · rw [Fleet.notice, hw]
      exact Loop.outgoing?_dispatch _ write
  have haccept : x.Step { x with loop := f.loop.accept.2 } := by
    have hs := Exchange.Step.accept (fun _ _ => none) hended
    rw [hx, Loop.dispatch_of_outgoing? (s := f.loop.accept.2) ho] at hs
    exact hs
  cases ha with
  | quiet hloop _ ht =>
    rw [hloop, ← hx]
    exact ⟨.refl, hx ▸ ho, ht⟩
  | accept hloop _ ht =>
    rw [hloop]
    exact ⟨.single haccept, ho, ht⟩
  | notice e =>
    obtain ⟨hs, ho', ht⟩ := hnotice x f e hx hended
    exact ⟨.single hs, ho', ht⟩
  | join lang =>
    obtain ⟨hs, ho', ht⟩ := hnotice { x with loop := f.loop.accept.2 }
      { f with loop := f.loop.accept.2 } (.connected f.loop.nextKey lang) rfl hended
    exact ⟨(Relation.ReflTransGen.single haccept).tail hs, ho', ht⟩

theorem Acts.steps (ha : Acts f g) (hx : x.loop = f.loop) (ho : f.loop.outgoing? = none)
    (hended : x.ended = false) :
    x.Steps { x with loop := g.loop } ∧ g.loop.outgoing? = none ∧ g.tickets = f.tickets := by
  induction ha with
  | refl =>
    rw [← hx]
    exact ⟨.refl, hx ▸ ho, rfl⟩
  | tail _ ha ih =>
    obtain ⟨hs, ho', ht⟩ := ih
    obtain ⟨hs', ho'', ht'⟩ := ha.steps (x := { x with loop := _ }) rfl ho' hended
    exact ⟨hs.trans hs', ho'', ht'.trans ht⟩

theorem mem_replies_of_answer? {ticket : Nat} {a : Answer} (ha : f.answer? ticket = some a) :
    (ticket, a) ∈ f.loop.replies := by
  obtain ⟨before, after, hl, -⟩ := List.lookup_eq_some_iff.1 ha
  rw [hl]
  exact List.mem_append_right _ List.mem_cons_self

/-- The fleet between two submissions, with nothing between the handle and the daemon. -/
def exchange (f : Fleet) : Exchange where
  loop := f.loop
  tickets := f.tickets

/-- A submission to the fleet is a sequence of steps, from its request to the receipt of its answer. -/
theorem submit_steps {job : Job} {worker : Option Nat} {h h' : Host} {a : Answer}
    (hs : submit job worker (f, h) = some (a, g, h')) :
    f.exchange.Steps g.exchange ∧ g.loop.outgoing? = none := by
  let started : Fleet :=
    { f with tickets := f.tickets + 1, loop := f.loop.submit job f.tickets }
  let waiting (reported : Bool) (loop : Loop) : Exchange :=
    { loop, tickets := f.tickets + 1, phase := .waiting f.tickets job.lang reported }
  unfold submit at hs
  obtain ⟨⟨f₁, h₁⟩, hquiet, hs⟩ := Option.bind_eq_some_iff.1 hs
  have htaken : f.exchange.Steps (waiting false started.dispatch.loop) := by
    obtain ⟨write, hw⟩ := loop_dispatch started
    have hasked : f.exchange.Steps _ := .single (.submit job rfl)
    rw [hw]
    exact hasked.tail (.takeJob write rfl rfl)
  have hout : started.dispatch.loop.outgoing? = none := by
    obtain ⟨write, hw⟩ := loop_dispatch started
    rw [hw]
    exact Loop.outgoing?_dispatch _ write
  obtain ⟨hworked, ho₁, ht₁⟩ := (acts_quiesce hquiet).steps
    (x := waiting false started.dispatch.loop) rfl hout rfl
  have hreceive : ∀ (reported : Bool) (loop : Loop) (a : Answer), (f.tickets, a) ∈ loop.replies →
      (waiting reported loop).Step { loop, tickets := f.tickets + 1 } :=
    fun _ _ _ ha => .receive rfl ha
  have hdone : ∀ e : Fleet, e.tickets = f₁.tickets →
      e.exchange = { loop := e.loop, tickets := f.tickets + 1 } := by
    intro e he
    have ht : e.tickets = f.tickets + 1 := he.trans (ht₁.trans (tickets_dispatch started))
    rw [exchange, ht]
  dsimp only at hs
  split at hs
  · rename_i a' ha
    cases hs
    rw [hdone g rfl]
    have hanswer := hreceive false _ a (mem_replies_of_answer? ha)
    exact ⟨(htaken.trans hworked).tail hanswer, ho₁⟩
  · let noticed : Fleet := { f₁ with loop := f₁.loop.workerExited job.lang }
    have hnoticed : (noticed.answer? f.tickets).map (·, noticed, h₁) = some (a, g, h') := by
      split at hs
      · split at hs
        · exact hs
        · cases hs
      · cases hs
    obtain ⟨a', ha, he⟩ := Option.map_eq_some_iff.1 hnoticed
    obtain ⟨rfl, rfl, -⟩ : a' = a ∧ noticed = g ∧ h₁ = h' := by simpa using he
    rw [hdone noticed rfl]
    -- the report is taken at once, and there is nothing to write after it
    have hreported := (htaken.trans hworked).tail (.report rfl)
    have ho₂ := Loop.outgoing?_workerExited ho₁ job.lang
    have htold : f.exchange.Steps (waiting true (f₁.loop.workerExited job.lang)) := by
      rw [← Loop.dispatch_of_outgoing? ho₂ fun _ _ => none]
      exact hreported.tail (.takeReport _ rfl rfl)
    have hanswer := hreceive true _ a' (mem_replies_of_answer? ha)
    exact ⟨htold.tail hanswer, ho₂⟩

end Fleet
/-! ## The fleet at rest -/

namespace Fleet

/-- Between two submissions the fleet is where steps of a handle and a daemon have led. -/
structure Exchanged (f : Fleet) : Prop where
  reached : f.exchange.Reached
  written : f.loop.outgoing? = none

variable {f g : Fleet}

theorem Exchanged.acts (hf : f.Exchanged) (ha : Acts f g) : g.Exchanged := by
  obtain ⟨hs, ho, ht⟩ := ha.steps (x := f.exchange) rfl hf.written rfl
  refine ⟨?_, ho⟩
  rw [exchange, ht]
  exact hf.reached.trans hs

theorem Exchanged.submit (hf : f.Exchanged) {job : Job} {worker : Option Nat} {h h' : Host}
    {a : Answer} (hs : submit job worker (f, h) = some (a, g, h')) : g.Exchanged := by
  obtain ⟨hsteps, ho⟩ := submit_steps hs
  exact ⟨hf.reached.trans hsteps, ho⟩

/-- A job is run in submissions, between which workers come and go. -/
theorem Exchanged.runJobWith (hf : f.Exchanged) {retries : Nat} {spec : LaunchSpec} {job : Job}
    {handle handle' : Handle} {h h' : Host} {result : Except Diagnostic Job}
    (hr : handle.runJobWith backend spec retries job (f, h) = some (result, handle', g, h')) :
    g.Exchanged := by
  induction retries using Nat.strong_induction_on generalizing job handle f h with
  | _ retries ih =>
  have hready := hf.acts (acts_ensureWorker handle job.lang spec f h)
  cases Handle.submission_of_runJobWith hr with
  | unstarted he _ =>
    rw [he] at hready
    exact hready
  | stopped he =>
    rw [he] at hready
    exact hready
  | @refused s₁ d he hsub =>
    rw [he] at hready
    exact hready.submit hsub
  | @done s₁ finished he _ hsub =>
    rw [he] at hready
    exact hready.submit hsub
  | @lost h₁ s₁ s₂ lost he hsub hretire =>
    rw [he] at hready
    have hdone := (hready.submit hsub).acts (acts_retire h₁ lost.lang s₂.1 s₂.2)
    rw [show (s₂.1, s₂.2) = s₂ from rfl, hretire] at hdone
    exact hdone
  | @again n h₁ h₂ s₁ s₂ s₃ lost _ he hsub hretire hn hagain =>
    rw [he] at hready
    have hdone := (hready.submit hsub).acts (acts_retire h₁ lost.lang s₂.1 s₂.2)
    rw [show (s₂.1, s₂.2) = s₂ from rfl, hretire] at hdone
    exact ih n (by omega) hdone hagain

end Fleet

end Guest
end Ditlang
