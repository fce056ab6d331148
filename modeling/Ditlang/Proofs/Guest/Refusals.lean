import Ditlang.Proofs.Guest.Submission
import Ditlang.Session.Basic

/-!
# Ditlang.Proofs.Guest.Refusals

Diagnostics of the guest side say nothing about a place in a source: the place is attached by the
body in which the guest function was called. Most of them are made where a job is run. Those that the
daemon makes are kept among its replies, as refusals; no step of the fleet but a submission adds one
(`Fleet.Act.refusals`).
-/

namespace Ditlang

/-- A diagnostic without a place. -/
structure Diagnostic.Unlocated (d : Diagnostic) : Prop where
  origin : d.origin = none
  pending : d.pending = none

namespace Guest

namespace Loop

def refusals (s : Loop) : List Diagnostic :=
  s.replies.filterMap fun
    | (_, .refused d) => some d
    | _ => none

theorem refusals_complete (s : Loop) : s.complete.refusals = s.refusals := by
  unfold complete
  split
  · rfl
  · simp [refusals, reply]

theorem refusals_lose (s : Loop) : s.lose.refusals = s.refusals := by
  unfold lose
  split
  · rfl
  · simp [refusals, reply]

theorem refusals_settle (s : Loop) (kind : JobKind) (result : Json) :
    (s.settle kind result).refusals = s.refusals :=
  refusals_complete _

theorem refusals_crash (s : Loop) (text : String) : (s.crash text).refusals = s.refusals :=
  refusals_settle s _ _

theorem refusals_onMessage (s : Loop) (key : Nat) (m : WorkerMessage) :
    (s.onMessage key m).refusals = s.refusals := by
  unfold onMessage
  split
  · split
    · rfl
    · exact refusals_settle _ _ _
    · exact refusals_settle _ _ _
    · exact refusals_settle _ _ _
    · rfl
  · rfl

theorem refusals_onClosed (s : Loop) (key : Nat) : (s.onClosed key).refusals = s.refusals := by
  unfold onClosed
  split
  · rfl
  · dsimp only
    split
    · exact refusals_lose _
    · split
      · exact refusals_crash (s.drop key) _
      · rfl

theorem refusals_handle (s : Loop) (e : Event) : (s.handle e).refusals = s.refusals := by
  cases e with
  | connected key lang =>
    rw [handle]
    split <;> rfl
  | message key m => exact refusals_onMessage s key m
  | malformed key line =>
    rw [handle]
    split
    · exact refusals_crash s _
    · rfl
  | closed key => exact refusals_onClosed s key

theorem refusals_workerExited (s : Loop) (lang : String) :
    (s.workerExited lang).refusals = s.refusals := by
  unfold workerExited
  split
  · split
    · exact refusals_crash s _
    · rfl
  · rfl

theorem refusals_unwritten (s : Loop) (key : Nat) (job : Job) (reason : String) :
    (s.unwritten key job reason).refusals = s.refusals := by
  unfold unwritten
  dsimp only
  split
  · exact refusals_lose _
  · exact refusals_crash (s.drop key) _

/-- A refused submission has no place. -/
theorem unlocated_submit {s : Loop} (h : ∀ d ∈ s.refusals, d.Unlocated) (job : Job) (ticket : Nat) :
    ∀ d ∈ (s.submit job ticket).refusals, d.Unlocated := by
  unfold submit
  split
  · intro d hd
    rw [refusals, reply, List.filterMap_append] at hd
    rcases List.mem_append.1 hd with hd | hd
    · exact h d hd
    · rw [show d = .critical "A guest job is already in flight" by simpa using hd]
      exact ⟨rfl, rfl⟩
  · dsimp only
    split
    · rw [refusals_lose]
      exact h
    · exact h

end Loop

namespace Fleet

variable {f g : Fleet}

theorem refusals_dispatch (f : Fleet) : f.dispatch.loop.refusals = f.loop.refusals := by
  unfold dispatch
  split
  · rfl
  · split
    · rfl
    · exact Loop.refusals_unwritten _ _ _ _

theorem refusals_notice (f : Fleet) (e : Event) : (f.notice e).loop.refusals = f.loop.refusals := by
  rw [notice, refusals_dispatch]
  exact Loop.refusals_handle f.loop e

theorem Act.refusals (h : Act f g) : g.loop.refusals = f.loop.refusals := by
  cases h with
  | quiet hl => rw [hl]
  | accept hl =>
    rw [hl]
    rfl
  | notice e => exact refusals_notice f e
  | join lang => exact refusals_notice { f with loop := f.loop.accept.2 } _

theorem Acts.refusals (h : Acts f g) : g.loop.refusals = f.loop.refusals := by
  induction h with
  | refl => rfl
  | tail _ h ih => exact h.refusals.trans ih

/-- The refusals of the daemon have no place. -/
def Unlocated (f : Fleet) : Prop :=
  ∀ d ∈ f.loop.refusals, d.Unlocated

theorem Unlocated.acts (hf : f.Unlocated) (h : Acts f g) : g.Unlocated := by
  rw [Unlocated, Acts.refusals h]
  exact hf

theorem Unlocated.answer? (hf : f.Unlocated) {ticket : Nat} {d : Diagnostic}
    (ha : f.answer? ticket = some (.refused d)) : d.Unlocated := by
  obtain ⟨before, after, hreplies, -⟩ := List.lookup_eq_some_iff.1 ha
  refine hf d (List.mem_filterMap.2 ⟨(ticket, .refused d), ?_, rfl⟩)
  simp [hreplies]

/-- An answer to a submission that is a refusal has no place. -/
theorem Unlocated.submit (hf : f.Unlocated) {job : Job} {worker : Option Nat} {h h' : Host}
    {a : Answer} (hs : Fleet.submit job worker (f, h) = some (a, g, h')) :
    g.Unlocated ∧ ∀ d, a = .refused d → d.Unlocated := by
  simp only [Fleet.submit] at hs
  obtain ⟨⟨f', h₁⟩, hq, hs⟩ := Option.bind_eq_some_iff.1 hs
  have hstart : Unlocated
      ({ f with tickets := f.tickets + 1, loop := f.loop.submit job f.tickets }.dispatch) := by
    rw [Unlocated, refusals_dispatch]
    exact Loop.unlocated_submit hf job f.tickets
  have hf' := hstart.acts (acts_quiesce hq)
  split at hs
  · rename_i a' ha
    cases hs
    exact ⟨hf', fun d hd => hf'.answer? (hd ▸ ha)⟩
  · have hexit : Unlocated { f' with loop := f'.loop.workerExited job.lang } := by
      rw [Unlocated, Loop.refusals_workerExited]
      exact hf'
    split at hs
    · split at hs
      · obtain ⟨a', ha, he⟩ := Option.map_eq_some_iff.1 hs
        cases he
        exact ⟨hexit, fun d hd => hexit.answer? (hd ▸ ha)⟩
      · cases hs
    · cases hs

end Fleet

namespace Handle

variable {spec : LaunchSpec} {retries : Nat} {job : Job} {h h' : Handle} {f g : Fleet}
  {host host' : Host} {result : Except Diagnostic Job}

theorem unlocated_ensureWorker {lang : String} {d : Diagnostic} {s : Fleet.Site}
    (he : h.ensureWorker Fleet.backend lang spec (f, host) = (.error d, s)) : d.Unlocated := by
  unfold ensureWorker at he
  split at he
  · cases he
  · split at he
    · cases he
    · cases he
      exact ⟨rfl, rfl⟩

theorem unlocated_outcome {finished : Job} {d : Diagnostic} (ho : outcome finished = .error d) :
    d.Unlocated := by
  unfold outcome at ho
  split at ho
  · cases ho
    exact ⟨rfl, rfl⟩
  · cases ho

/-- The diagnostic of a job that fails has no place. -/
theorem unlocated_runJobWith (hf : f.Unlocated)
    (hr : runJobWith Fleet.backend spec retries job h (f, host) = some (result, h', g, host')) :
    g.Unlocated ∧ ∀ d, result = .error d → d.Unlocated := by
  induction retries using Nat.strong_induction_on generalizing job h f host with
  | _ retries ih =>
    have hworker := Fleet.acts_ensureWorker h job.lang spec f host
    cases submission_of_runJobWith hr with
    | unstarted he =>
      rw [he] at hworker
      refine ⟨hf.acts hworker, ?_⟩
      rintro _ ⟨⟩
      exact unlocated_ensureWorker he
    | stopped he =>
      rw [he] at hworker
      refine ⟨hf.acts hworker, ?_⟩
      rintro _ ⟨⟩
      exact ⟨rfl, rfl⟩
    | @refused s₁ d he hsub =>
      rw [he] at hworker
      obtain ⟨hg, hd⟩ := (hf.acts hworker).submit hsub
      refine ⟨hg, ?_⟩
      rintro _ ⟨⟩
      exact hd d rfl
    | @done s₁ finished he _ hsub =>
      rw [he] at hworker
      exact ⟨((hf.acts hworker).submit hsub).1, fun _ => unlocated_outcome⟩
    | @lost h₁ s₁ s₂ lost he hsub hretire =>
      rw [he] at hworker
      have hg := ((hf.acts hworker).submit hsub).1.acts (Fleet.acts_retire h₁ lost.lang s₂.1 s₂.2)
      rw [show (s₂.1, s₂.2) = s₂ from rfl, hretire] at hg
      refine ⟨hg, ?_⟩
      rintro _ ⟨⟩
      exact ⟨rfl, rfl⟩
    | @again n h₁ h₂ s₁ s₂ s₃ lost _ he hsub hretire hn hagain =>
      rw [he] at hworker
      have hg := ((hf.acts hworker).submit hsub).1.acts (Fleet.acts_retire h₁ lost.lang s₂.1 s₂.2)
      rw [show (s₂.1, s₂.2) = s₂ from rfl, hretire] at hg
      exact ih n (by omega) hg hagain

end Handle
end Guest

namespace Session

open Guest

def Unlocated (s : Session) : Prop :=
  ∀ d, s.daemon = some d → d.fleet.Unlocated

variable {s s' : Session}

theorem Unlocated.of_daemon (hs : s.Unlocated) (h : s'.daemon = s.daemon) : s'.Unlocated := by
  rw [Unlocated, h]
  exact hs

theorem Unlocated.ensureDaemon (hs : s.Unlocated) : s.ensureDaemon.1.fleet.Unlocated := by
  unfold Session.ensureDaemon
  split
  · rename_i d hd
    exact hs d hd
  · intro d hd
    cases hd

theorem Unlocated.settle (hs : s.Unlocated) : s.settle.Unlocated := by
  unfold Session.settle
  split
  · exact hs
  · rename_i d hd
    rintro _ ⟨⟩
    exact (hs d hd).acts (d.acts_settle s.host)

/-- A job that is run leaves a daemon behind, and its diagnostic has no place. -/
theorem Unlocated.runJob (hs : s.Unlocated) {spec : LaunchSpec} {job : Job}
    {result : Except Diagnostic Job} (hr : s.runJob spec job = some (result, s')) :
    s'.Unlocated ∧ s'.daemon.isSome ∧ ∀ d, result = .error d → d.Unlocated := by
  obtain ⟨⟨result', d, host⟩, hrun, he⟩ := Option.map_eq_some_iff.1 hr
  cases he
  obtain ⟨⟨_, handle, fleet, _⟩, hrun', he'⟩ := Option.map_eq_some_iff.1 hrun
  cases he'
  obtain ⟨hg, hd⟩ := Handle.unlocated_runJobWith hs.ensureDaemon hrun'
  refine ⟨?_, rfl, hd⟩
  rintro _ ⟨⟩
  exact hg

end Session
end Ditlang
