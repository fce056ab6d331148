import Ditlang.Guest.Loop
import Mathlib.Data.List.Nodup
import Mathlib.Data.List.Count

/-!
# Ditlang.Proofs.Guest.Answers

Every submission to the daemon is answered exactly once.

A `Trace` is the daemon together with a record of its past: how many submissions it has taken, and
which lines were handed to which connection. Submissions are numbered in the order in which they are
taken, and the number is the ticket under which the answer is given.

* `tickets`: the tickets answered so far, followed by that of the pending job.
* `tickets_perm_range`: after any run these are all tickets handed out, each once. Every operation
  that settles a job moves its ticket from the second part to the first (`tickets_complete`,
  `tickets_lose`); a refused submission is answered in front of the pending one.
* `submissions_answered_once`: the same said of the answers, with what a submission meets while
  another job is pending and with what the end of the daemon reports.
-/

namespace Ditlang
namespace Guest

/-- A step of the daemon. -/
inductive LoopStep where
  | accept
  | submit (job : Job)
  | event (e : Event)
  | exited (lang : String)
  /-- `write` says why a line could not be written to a connection. -/
  | dispatch (write : Nat → String → Option String)

/-- The daemon with a record of its past. -/
structure Trace where
  loop : Loop := {}
  /-- How many submissions were taken; each has the number of those before it as its ticket. -/
  submitted : Nat := 0
  /-- For every line that was handed to a connection, the ticket of its job and the key. -/
  writes : List (Nat × Nat) := []

namespace Loop

/-- The tickets answered so far, and then the ticket of the pending job. -/
def tickets (s : Loop) : List Nat :=
  s.replies.map Prod.fst ++ (s.pending.map Pending.ticket).toList

/-- The ticket and the connection of the line that a dispatch writes now. -/
def writeNow? (s : Loop) : Option (Nat × Nat) :=
  s.outgoing?.bind fun (key, _) => s.pending.map fun p => (p.ticket, key)

end Loop

namespace Trace

def step (t : Trace) : LoopStep → Trace
  | .accept => { t with loop := t.loop.accept.2 }
  | .submit job =>
    { t with loop := t.loop.submit job t.submitted, submitted := t.submitted + 1 }
  | .event e => { t with loop := t.loop.handle e }
  | .exited lang => { t with loop := t.loop.workerExited lang }
  | .dispatch write =>
    { t with loop := t.loop.dispatch write, writes := t.writes ++ t.loop.writeNow?.toList }

/-- The daemon after a sequence of steps from its start. -/
def run (steps : List LoopStep) : Trace :=
  steps.foldl step {}

end Trace

namespace Loop

/-! ## Settling a job keeps the tickets -/

theorem tickets_congr {s t : Loop} (hr : t.replies = s.replies)
    (hp : t.pending.map Pending.ticket = s.pending.map Pending.ticket) :
    t.tickets = s.tickets := by
  rw [tickets, tickets, hr, hp]

theorem tickets_complete (s : Loop) : s.complete.tickets = s.tickets := by
  unfold complete
  split
  · rfl
  · rename_i p hp
    simp [tickets, reply, hp]

theorem tickets_lose (s : Loop) : s.lose.tickets = s.tickets := by
  unfold lose
  split
  · rfl
  · rename_i p hp
    simp [tickets, reply, hp]

theorem tickets_modifyPending (s : Loop) {f : Pending → Pending}
    (hf : ∀ p, (f p).ticket = p.ticket) : (s.modifyPending f).tickets = s.tickets := by
  refine tickets_congr rfl ?_
  cases hp : s.pending with
  | none => simp [modifyPending, hp]
  | some p => simp [modifyPending, hp, hf]

theorem tickets_settle (s : Loop) (kind : JobKind) (result : Json) :
    (s.settle kind result).tickets = s.tickets := by
  rw [settle, tickets_complete]
  exact tickets_modifyPending s fun _ => rfl

theorem tickets_crash (s : Loop) (text : String) : (s.crash text).tickets = s.tickets :=
  tickets_settle s _ _

theorem tickets_drop (s : Loop) (key : Nat) : (s.drop key).tickets = s.tickets :=
  tickets_congr rfl rfl

theorem tickets_setLost (s : Loop) (lost : List String) :
    ({ s with lost } : Loop).tickets = s.tickets :=
  tickets_congr rfl rfl

theorem tickets_onMessage (s : Loop) (key : Nat) (m : WorkerMessage) :
    (s.onMessage key m).tickets = s.tickets := by
  unfold onMessage
  split
  · cases m with
    | connect lang => rfl
    | heart => exact tickets_modifyPending s fun _ => rfl
    | crash result => exact tickets_settle s _ _
    | exeDitlang result => exact tickets_settle s _ _
    | finishFunc result => exact tickets_settle s _ _
  · rfl

theorem tickets_onClosed (s : Loop) (key : Nat) : (s.onClosed key).tickets = s.tickets := by
  unfold onClosed
  split
  · exact tickets_drop s key
  · rename_i lang _
    dsimp only
    split
    · rw [tickets_lose, tickets_drop]
    · rw [tickets_setLost]
      split
      · rw [tickets_crash, tickets_drop]
      · exact tickets_drop s key

theorem tickets_handle (s : Loop) (e : Event) : (s.handle e).tickets = s.tickets := by
  cases e with
  | connected key lang =>
    simp only [handle]
    split
    · exact tickets_congr rfl rfl
    · exact tickets_congr rfl rfl
  | message key m => exact tickets_onMessage s key m
  | malformed key line =>
    simp only [handle]
    split
    · exact tickets_crash s _
    · rfl
  | closed key => exact tickets_onClosed s key

theorem tickets_workerExited (s : Loop) (lang : String) :
    (s.workerExited lang).tickets = s.tickets := by
  unfold workerExited
  split
  · split
    · exact tickets_crash s _
    · rfl
  · rfl

theorem tickets_unwritten (s : Loop) (key : Nat) (job : Job) (reason : String) :
    (s.unwritten key job reason).tickets = s.tickets := by
  unfold unwritten
  dsimp only
  split
  · rw [tickets_lose, tickets_drop]
  · rw [tickets_crash, tickets_drop]

theorem tickets_dispatch (s : Loop) (write : Nat → String → Option String) :
    (s.dispatch write).tickets = s.tickets := by
  unfold dispatch
  split
  · rfl
  · split
    · exact tickets_modifyPending s fun _ => rfl
    · exact tickets_unwritten s _ _ _

/-! ## Submissions and the end -/

/-- While a job is pending, a submission is refused and nothing else happens. -/
theorem submit_of_pending {s : Loop} (hp : s.pending.isSome) (job : Job) (ticket : Nat) :
    s.submit job ticket =
      { s with replies := s.replies ++
          [(ticket, .refused (.critical "A guest job is already in flight"))] } := by
  rw [submit, if_pos hp]
  rfl

/-- A submission adds its ticket: behind the others, or in front of the pending one. -/
theorem tickets_submit (s : Loop) (job : Job) (ticket : Nat) :
    (s.submit job ticket).tickets.Perm (s.tickets ++ [ticket]) := by
  cases hp : s.pending with
  | some p =>
    rw [submit_of_pending (by rw [hp]; rfl)]
    simp only [tickets, hp, List.map_append, List.map_cons, List.map_nil, Option.map_some,
      Option.toList_some, List.append_assoc]
    exact List.Perm.append_left _ (List.Perm.swap _ _ _)
  | none =>
    have hwait : ({ s with pending := some ⟨job, ticket, false⟩ } : Loop).tickets =
        s.tickets ++ [ticket] := by
      simp [tickets, hp]
    rw [submit, if_neg (by rw [hp]; exact Bool.false_ne_true)]
    dsimp only
    split
    · rw [tickets_lose, ← hwait]
      exact List.Perm.refl _
    · rw [hwait]

/-- At the end everything that was taken is answered. -/
theorem replies_teardown (s : Loop) : s.teardown.2.replies.map Prod.fst = s.tickets := by
  unfold teardown
  dsimp only
  split
  · rename_i hp
    simp [tickets, hp]
  · rename_i p hp
    simp [tickets, reply, hp]

/-- The end is reported as a fault exactly when a job was still pending. -/
theorem teardown_isError_iff (s : Loop) :
    (∃ d, s.teardown.1 = .error d) ↔ s.pending.isSome := by
  unfold teardown
  dsimp only
  split
  · rename_i hp
    simp [hp]
  · rename_i p hp
    simp [hp]

end Loop

namespace Trace

/-- What holds at the start and is kept by every step holds after every run. -/
theorem run_induction {P : Trace → Prop} (start : P {}) (step : ∀ t a, P t → P (t.step a))
    (steps : List LoopStep) : P (run steps) := by
  suffices h : ∀ t, P t → P (steps.foldl Trace.step t) from h {} start
  induction steps with
  | nil => exact fun t ht => ht
  | cons a steps ih => exact fun t ht => ih (t.step a) (step t a ht)

theorem tickets_step {t : Trace} (a : LoopStep)
    (h : t.loop.tickets.Perm (List.range t.submitted)) :
    (t.step a).loop.tickets.Perm (List.range (t.step a).submitted) := by
  cases a with
  | accept => exact h
  | submit job =>
    simp only [step, List.range_succ]
    exact (Loop.tickets_submit _ _ _).trans (h.append_right _)
  | event e => simpa only [step, Loop.tickets_handle] using h
  | exited lang => simpa only [step, Loop.tickets_workerExited] using h
  | dispatch write => simpa only [step, Loop.tickets_dispatch] using h

/-- After any run, the tickets answered and the one of the pending job are all tickets that were
handed out, each once. -/
theorem tickets_perm_range (steps : List LoopStep) :
    (run steps).loop.tickets.Perm (List.range (run steps).submitted) :=
  run_induction (P := fun t => t.loop.tickets.Perm (List.range t.submitted)) (List.Perm.refl _)
    (fun _ a h => tickets_step a h) steps

/-- How often each ticket has been answered, and whether its job is pending. -/
theorem count_replies_add_pending (steps : List LoopStep) (k : Nat) :
    ((run steps).loop.replies.map Prod.fst).count k +
        ((run steps).loop.pending.map Pending.ticket).toList.count k =
      if k < (run steps).submitted then 1 else 0 := by
  rw [← List.count_append, ← Loop.tickets, (tickets_perm_range steps).count_eq]
  split
  · rename_i hk
    exact List.count_eq_one_of_mem List.nodup_range (List.mem_range.2 hk)
  · rename_i hk
    exact List.count_eq_zero_of_not_mem fun hm => hk (List.mem_range.1 hm)

/-- Every submission is answered exactly once. At every moment no ticket was answered twice, and a
ticket that was handed out waits for its answer exactly when it is that of the pending job; at the
end every ticket has one answer. A submission that meets a pending job is refused as a critical
fault and changes nothing else, and the end is reported as a fault exactly when a job was pending. -/
theorem submissions_answered_once (steps : List LoopStep) :
    (∀ k, ((run steps).loop.replies.map Prod.fst).count k ≤ 1) ∧
    (∀ k < (run steps).submitted, k ∉ (run steps).loop.replies.map Prod.fst ↔
      ∃ p, (run steps).loop.pending = some p ∧ p.ticket = k) ∧
    (∀ k, ((run steps).loop.teardown.2.replies.map Prod.fst).count k =
      if k < (run steps).submitted then 1 else 0) ∧
    (∀ job, (run steps).loop.pending.isSome → ∃ d : Diagnostic, d.kind = .critical ∧
      (run steps).loop.submit job (run steps).submitted =
        { (run steps).loop with
          replies := (run steps).loop.replies ++ [((run steps).submitted, .refused d)] }) ∧
    ((∃ d, (run steps).loop.teardown.1 = .error d) ↔ (run steps).loop.pending.isSome) := by
  refine ⟨fun k => ?_, fun k hk => ?_, fun k => ?_, fun job hp => ?_, Loop.teardown_isError_iff _⟩
  · have := count_replies_add_pending steps k
    split at this <;> omega
  · have hcount := count_replies_add_pending steps k
    rw [if_pos hk] at hcount
    rw [← List.count_eq_zero]
    cases hp : (run steps).loop.pending with
    | none =>
      rw [hp] at hcount
      simp at hcount ⊢
      omega
    | some p =>
      rw [hp] at hcount
      by_cases hpk : p.ticket = k
      · simp [hpk] at hcount ⊢
        exact hcount
      · simp [hpk] at hcount ⊢
        omega
  · rw [Loop.replies_teardown, Loop.tickets, List.count_append]
    exact count_replies_add_pending steps k
  · exact ⟨_, rfl, Loop.submit_of_pending hp job _⟩

end Trace
end Guest
end Ditlang
