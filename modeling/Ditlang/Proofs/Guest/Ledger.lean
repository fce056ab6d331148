import Ditlang.Proofs.Guest.Submission
import Mathlib.Data.List.Perm.Basic

/-!
# Ditlang.Proofs.Guest.Ledger

The workers of a handle, from their launch to their end. What a handle has its backend do is written
down by `Backend.kept`, whatever the backend is: any launcher may be behind it, and a daemon that
answers as it likes, or never. `Run` says for one job what is written down, and from there two
accounts follow.

* `Run.submissions`: a job is submitted at most once more than it may be retried, and again only after
  the answer that it was lost, as a call.
* `Balanced`: the workers that were launched are those in the table and those that were stopped, each
  once. Every run of a job and every shutdown keeps that (`Turn.balanced`).
-/

namespace Ditlang
namespace Guest

/-! ## What is written down -/

/-- What a handle has its backend do. -/
inductive Deed where
  | launched (spec : LaunchSpec) (worker : Except String Nat)
  /-- A job was submitted, and what the answer was, if one came. -/
  | submitted (job : Job) (answer : Option Answer)
  | terminated (worker : Nat)

namespace Deed

def isLaunch : Deed → Bool
  | .launched _ _ => true
  | _ => false

def started? : Deed → Option Nat
  | .launched _ (.ok worker) => some worker
  | _ => none

def ended? : Deed → Option Nat
  | .terminated worker => some worker
  | _ => none

def submission? : Deed → Option (Job × Option Answer)
  | .submitted job answer => some (job, answer)
  | _ => none

end Deed

def launches (ds : List Deed) : Nat :=
  ds.countP Deed.isLaunch

def submissions (ds : List Deed) : List (Job × Option Answer) :=
  ds.filterMap Deed.submission?

/-- Whether the wait for an answer never ended. -/
def stalled (ds : List Deed) : Bool :=
  (submissions ds).any fun x => x.2.isNone

def started (ds : List Deed) : List Nat :=
  ds.filterMap Deed.started?

/-- The workers that were stopped, as often as they were. -/
def ended (ds : List Deed) : List Nat :=
  ds.filterMap Deed.ended?

section Append

variable (ds es : List Deed)

@[simp] theorem launches_append : launches (ds ++ es) = launches ds + launches es :=
  List.countP_append

@[simp] theorem submissions_append : submissions (ds ++ es) = submissions ds ++ submissions es :=
  List.filterMap_append

@[simp] theorem submissions_nil : submissions [] = [] := rfl

@[simp] theorem submissions_submitted (job : Job) (answer : Option Answer) :
    submissions (.submitted job answer :: ds) = (job, answer) :: submissions ds := rfl

@[simp] theorem launches_nil : launches [] = 0 := rfl

@[simp] theorem launches_submitted (job : Job) (answer : Option Answer) :
    launches (.submitted job answer :: ds) = launches ds :=
  List.countP_cons_of_neg (by simp [Deed.isLaunch])

@[simp] theorem started_append : started (ds ++ es) = started ds ++ started es :=
  List.filterMap_append

@[simp] theorem ended_append : ended (ds ++ es) = ended ds ++ ended es :=
  List.filterMap_append

end Append

/-- What stands for the answer that never comes. -/
def unanswered : Diagnostic :=
  .critical "Guest daemon did not answer"

/-- The backend, with everything it does written down. A wait that never ends is given up, so that what
was done before it can be told. -/
def Backend.kept {σ : Type} (b : Backend σ) : Backend (σ × List Deed) where
  launch := fun spec (s, ds) =>
    ((b.launch spec s).1, (b.launch spec s).2, ds ++ [.launched spec (b.launch spec s).1])
  terminate := fun worker (s, ds) => (b.terminate worker s, ds ++ [.terminated worker])
  submit := fun job worker (s, ds) =>
    match b.submit job worker s with
    | some (answer, s) => some (answer, s, ds ++ [.submitted job (some answer)])
    | none => some (.refused unanswered, s, ds ++ [.submitted job none])
  stop := fun (s, ds) => ((b.stop s).1, (b.stop s).2, ds)

namespace Handle

variable {σ : Type} (b : Backend σ) (spec : LaunchSpec)

/-- How it is made sure that a Lang has a worker. -/
inductive Started (h : Handle) (lang : String) (s : σ) :
    Except Diagnostic Handle → σ → List Deed → Prop where
  | known : (h.workers.lookup lang).isSome → Started h lang s (.ok h) s []
  | launched {worker : Nat} {s' : σ} : h.workers.lookup lang = none →
      b.launch spec s = (.ok worker, s') →
      Started h lang s (.ok { h with workers := h.workers ++ [(lang, worker)] }) s'
        [.launched spec (.ok worker)]
  | failed {reason : String} {s' : σ} : h.workers.lookup lang = none →
      b.launch spec s = (.error reason, s') →
      Started h lang s (.error (.critical ("Could not launch '" ++ spec.executable ++ "' for Lang '" ++
        spec.lang ++ "': " ++ reason))) s' [.launched spec (.error reason)]

/-- How a worker is forgotten. -/
inductive Retired (h : Handle) (lang : String) (s : σ) : Handle → σ → List Deed → Prop where
  | unknown : h.workers.lookup lang = none → Retired h lang s h s []
  | terminated {worker : Nat} : h.workers.lookup lang = some worker →
      Retired h lang s { h with workers := h.workers.filter (·.1 ≠ lang) } (b.terminate worker s)
        [.terminated worker]

/-- What running a job comes to, and what is done for it. -/
inductive Run : Nat → Job → Handle → σ → Except Diagnostic Job → Handle → σ → List Deed → Prop where
  | unstarted {n : Nat} {job : Job} {h : Handle} {s s' : σ} {d : Diagnostic} {ds : List Deed} :
      Started b spec h job.lang s (.error d) s' ds → Run n job h s (.error d) h s' ds
  | stopped {n : Nat} {job : Job} {h h' : Handle} {s s' : σ} {ds : List Deed} :
      Started b spec h job.lang s (.ok h') s' ds → h'.running = false →
      Run n job h s (.error (.critical "Guest daemon is not running")) h' s' ds
  | refused {n : Nat} {job : Job} {h h' : Handle} {s s₁ s' : σ} {d : Diagnostic} {ds : List Deed} :
      Started b spec h job.lang s (.ok h') s₁ ds → h'.running = true →
      b.submit job.fresh (h'.workers.lookup job.lang) s₁ = some (.refused d, s') →
      Run n job h s (.error d) h' s' (ds ++ [.submitted job.fresh (some (.refused d))])
  | done {n : Nat} {job finished : Job} {h h' : Handle} {s s₁ s' : σ} {ds : List Deed} :
      Started b spec h job.lang s (.ok h') s₁ ds → h'.running = true →
      b.submit job.fresh (h'.workers.lookup job.lang) s₁ = some (.done finished, s') →
      Run n job h s (outcome finished) h' s' (ds ++ [.submitted job.fresh (some (.done finished))])
  | unanswered {n : Nat} {job : Job} {h h' : Handle} {s s' : σ} {ds : List Deed} :
      Started b spec h job.lang s (.ok h') s' ds → h'.running = true →
      b.submit job.fresh (h'.workers.lookup job.lang) s' = none →
      Run n job h s (.error Guest.unanswered) h' s' (ds ++ [.submitted job.fresh none])
  | lost {n : Nat} {job lost : Job} {h h₁ h' : Handle} {s s₁ s₂ s' : σ} {ds es : List Deed} :
      Started b spec h job.lang s (.ok h₁) s₁ ds → h₁.running = true →
      b.submit job.fresh (h₁.workers.lookup job.lang) s₁ = some (.lost lost, s₂) →
      Retired b h₁ lost.lang s₂ h' s' es → (n = 0 ∨ lost.kind ≠ .callFunc) →
      Run n job h s (.error (crashed lost.func (lost.lang ++ " worker disconnected before answering")))
        h' s' (ds ++ .submitted job.fresh (some (.lost lost)) :: es)
  | again {n : Nat} {job lost : Job} {h h₁ h₂ h' : Handle} {s s₁ s₂ s₃ s' : σ}
      {result : Except Diagnostic Job} {ds es fs : List Deed} :
      Started b spec h job.lang s (.ok h₁) s₁ ds → h₁.running = true →
      b.submit job.fresh (h₁.workers.lookup job.lang) s₁ = some (.lost lost, s₂) →
      Retired b h₁ lost.lang s₂ h₂ s₃ es → lost.kind = .callFunc →
      Run n lost h₂ s₃ result h' s' fs →
      Run (n + 1) job h s result h' s'
        (ds ++ .submitted job.fresh (some (.lost lost)) :: (es ++ fs))

section

variable {b spec} {n : Nat} {job : Job} {h h' : Handle} {s s' : σ} {lang : String}
  {result : Except Diagnostic Job} {ds log : List Deed}

/-- Whether a worker has to be launched, it is written down. -/
theorem started_of_ensureWorker (b : Backend σ) (spec : LaunchSpec) (h : Handle) (lang : String)
    (s : σ) (log : List Deed) :
    ∃ ds, h.ensureWorker b.kept lang spec (s, log) =
        ((h.ensureWorker b lang spec s).1, (h.ensureWorker b lang spec s).2, log ++ ds) ∧
      Started b spec h lang s (h.ensureWorker b lang spec s).1 (h.ensureWorker b lang spec s).2 ds := by
  unfold ensureWorker
  cases hw : h.workers.lookup lang with
  | some worker => exact ⟨[], by simp, .known (by rw [hw]; rfl)⟩
  | none =>
    simp only [Option.isSome_none, Bool.false_eq_true, if_false, Backend.kept]
    rcases hl : b.launch spec s with ⟨reason | worker, s'⟩
    · exact ⟨_, rfl, .failed hw hl⟩
    · exact ⟨_, rfl, .launched hw hl⟩

/-- Whether a worker has to be stopped, it is written down. -/
theorem retired_of_retire (h : Handle) (lang : String) (s : σ) (log : List Deed) :
    ∃ ds, h.retire b.kept lang (s, log) =
        ((h.retire b lang s).1, (h.retire b lang s).2, log ++ ds) ∧
      Retired b h lang s (h.retire b lang s).1 (h.retire b lang s).2 ds := by
  unfold retire
  cases hw : h.workers.lookup lang with
  | some worker => exact ⟨[.terminated worker], rfl, .terminated hw⟩
  | none => exact ⟨[], by rw [List.append_nil], .unknown hw⟩

/-- A job that is submitted ends with the answer, or is run again. -/
theorem runJobWith_of_ensureWorker {τ : Type} {bk : Backend τ} {h₁ : Handle} {s s₁ : τ}
    (he : h.ensureWorker bk job.lang spec s = (.ok h₁, s₁)) (hrun : h₁.running = true) (n : Nat) :
    h.runJobWith bk spec n job s =
      match bk.submit job.fresh (h₁.workers.lookup job.lang) s₁ with
      | none => none
      | some (.refused d, s) => some (.error d, h₁, s)
      | some (.done finished, s) => some (outcome finished, h₁, s)
      | some (.lost lost, s) =>
        if n ≠ 0 ∧ lost.kind = .callFunc then
          runJobWith bk spec (n - 1) lost (h₁.retire bk lost.lang s).1 (h₁.retire bk lost.lang s).2
        else
          some (.error (crashed lost.func (lost.lang ++ " worker disconnected before answering")),
            h₁.retire bk lost.lang s) := by
  rw [runJobWith, he]
  simp only [hrun, Bool.not_true, Bool.false_eq_true, if_false]
  cases bk.submit job.fresh (h₁.workers.lookup job.lang) s₁ with
  | none => rfl
  | some answered =>
    obtain ⟨answer, s₂⟩ := answered
    cases answer with
    | done finished => rfl
    | refused d => rfl
    | lost lost =>
      cases n with
      | zero => simp
      | succ n => cases hkind : lost.kind <;> simp [hkind]

theorem submit_kept (job : Job) (worker : Option Nat) (s : σ) (log : List Deed) :
    b.kept.submit job worker (s, log) = match b.submit job worker s with
      | some (answer, s) => some (answer, s, log ++ [.submitted job (some answer)])
      | none => some (.refused unanswered, s, log ++ [.submitted job none]) :=
  rfl

/-- Every run of a job is one of those, and is written down as such. -/
theorem exists_run (b : Backend σ) (spec : LaunchSpec) (n : Nat) (job : Job) (h : Handle) (s : σ)
    (log : List Deed) : ∃ result h' s' ds,
      h.runJobWith b.kept spec n job (s, log) = some (result, h', s', log ++ ds) ∧
      Run b spec n job h s result h' s' ds := by
  -- On how often the job may be run again, with whatever has been done so far in the log.
  induction n using Nat.strong_induction_on generalizing job h s log with
  | _ n ih =>
  obtain ⟨ds, heq, hstart⟩ := started_of_ensureWorker b spec h job.lang s log
  rcases he : h.ensureWorker b job.lang spec s with ⟨d | h₁, s₁⟩
  · rw [he] at heq hstart
    refine ⟨.error d, h, s₁, ds, ?_, .unstarted hstart⟩
    rw [runJobWith, heq]
  · rw [he] at heq hstart
    cases hrun : h₁.running with
    | false =>
      refine ⟨.error (.critical "Guest daemon is not running"), h₁, s₁, ds, ?_, .stopped hstart hrun⟩
      rw [runJobWith, heq]
      simp only [hrun, Bool.not_false, if_true]
    | true =>
      rw [runJobWith_of_ensureWorker heq hrun, submit_kept]
      rcases hsub : b.submit job.fresh (h₁.workers.lookup job.lang) s₁ with _ | ⟨answer, s₂⟩
      · refine ⟨_, _, _, _, ?_, .unanswered hstart hrun hsub⟩
        rw [← List.append_assoc]
      · cases answer with
        | done finished =>
          refine ⟨_, _, _, _, ?_, .done hstart hrun hsub⟩
          rw [← List.append_assoc]
        | refused d =>
          refine ⟨_, _, _, _, ?_, .refused hstart hrun hsub⟩
          rw [← List.append_assoc]
        | lost lost =>
          obtain ⟨es, hretire, hretired⟩ := retired_of_retire (b := b) h₁ lost.lang s₂
            (log ++ ds ++ [.submitted job.fresh (some (.lost lost))])
          dsimp only
          rw [hretire]
          by_cases hagain : n ≠ 0 ∧ lost.kind = .callFunc
          · obtain ⟨k, rfl⟩ := Nat.exists_eq_succ_of_ne_zero hagain.1
            obtain ⟨result, h', s', fs, hrun', hr⟩ := ih k (Nat.lt_succ_self k) lost
              (h₁.retire b lost.lang s₂).1 (h₁.retire b lost.lang s₂).2
              (log ++ ds ++ [.submitted job.fresh (some (.lost lost))] ++ es)
            refine ⟨result, h', s', _, ?_, .again hstart hrun hsub hretired hagain.2 hr⟩
            rw [if_pos hagain, Nat.succ_sub_one, hrun']
            simp only [List.append_assoc, List.cons_append, List.nil_append]
          · have hend : n = 0 ∨ lost.kind ≠ .callFunc := by
              rw [← not_ne_iff, ← not_and_or]
              exact hagain
            refine ⟨_, _, _, _, ?_, .lost hstart hrun hsub hretired hend⟩
            rw [if_neg hagain]
            simp only [List.append_assoc, List.cons_append, List.nil_append]

theorem Started.eq {started : Except Diagnostic Handle}
    (hs : Started b spec h lang s started s' ds) : h.ensureWorker b lang spec s = (started, s') := by
  unfold ensureWorker
  cases hs with
  | known hw => rw [if_pos hw]
  | launched hw hl => simp only [hw, Option.isSome_none, Bool.false_eq_true, if_false, hl]
  | failed hw hl => simp only [hw, Option.isSome_none, Bool.false_eq_true, if_false, hl]

theorem Retired.eq (hr : Retired b h lang s h' s' ds) : h.retire b lang s = (h', s') := by
  unfold retire
  cases hr with
  | unknown hw => rw [hw]
  | terminated hw => rw [hw]

theorem Started.submissions {started : Except Diagnostic Handle}
    (hs : Started b spec h lang s started s' ds) : submissions ds = [] := by
  cases hs <;> rfl

theorem Retired.submissions (hr : Retired b h lang s h' s' ds) : submissions ds = [] := by
  cases hr <;> rfl

/-- What is written down tells whether the backend itself comes to an end, and with what. -/
theorem Run.runJobWith_eq (hr : Run b spec n job h s result h' s' ds) :
    h.runJobWith b spec n job s =
      if stalled ds then none else some (result, h', s') := by
  unfold stalled
  induction hr with
  | unstarted hs =>
    rw [runJobWith, hs.eq]
    simp [hs.submissions]
  | stopped hs hrun =>
    rw [runJobWith, hs.eq]
    simp [hs.submissions, hrun]
  | refused hs hrun hsub =>
    rw [runJobWith_of_ensureWorker hs.eq hrun, hsub]
    simp [hs.submissions]
  | done hs hrun hsub =>
    rw [runJobWith_of_ensureWorker hs.eq hrun, hsub]
    simp [hs.submissions]
  | unanswered hs hrun hsub =>
    rw [runJobWith_of_ensureWorker hs.eq hrun, hsub]
    simp [hs.submissions]
  | lost hs hrun hsub hret hend =>
    rw [runJobWith_of_ensureWorker hs.eq hrun, hsub]
    have hno : ¬ (_ ≠ 0 ∧ _ = _) := fun hagain => hend.elim hagain.1 fun hne => hne hagain.2
    simp only [if_neg hno]
    simp [hs.submissions, hret.submissions, hret.eq]
  | @again n job lost _ _ _ _ _ _ _ _ _ _ ds es fs hs hrun hsub hret hkind _ ih =>
    have hsubs : Guest.submissions (ds ++ .submitted job.fresh (some (.lost lost)) :: (es ++ fs)) =
        (job.fresh, some (.lost lost)) :: Guest.submissions fs := by
      simp [hs.submissions, hret.submissions]
    rw [runJobWith_of_ensureWorker hs.eq hrun, hsub, hsubs]
    dsimp only
    rw [if_pos ⟨Nat.succ_ne_zero n, hkind⟩, hret.eq, Nat.add_sub_cancel, ih]
    rfl

/-! ## One job -/

theorem Started.launches_le {started : Except Diagnostic Handle}
    (hs : Started b spec h lang s started s' ds) : launches ds ≤ 1 := by
  cases hs with
  | known => exact Nat.zero_le 1
  | launched | failed => exact Nat.le_refl 1

theorem Retired.launches (hr : Retired b h lang s h' s' ds) : launches ds = 0 := by
  cases hr <;> rfl

/-- There is at most one launch for each time that the job may be submitted. -/
theorem Run.launches_le (hr : Run b spec n job h s result h' s' ds) : launches ds ≤ n + 1 := by
  induction hr with
  | unstarted hs | stopped hs => exact Nat.le_add_left_of_le hs.launches_le
  | refused hs | done hs | unanswered hs =>
    have hone := hs.launches_le
    simp only [launches_append, launches_submitted, launches_nil]
    omega
  | lost hs _ _ hret =>
    have hone := hs.launches_le
    simp only [launches_append, launches_submitted, hret.launches]
    omega
  | again hs _ _ hret _ _ ih =>
    have hone := hs.launches_le
    simp only [launches_append, launches_submitted, hret.launches]
    omega

/-- One submission comes after another: the job was lost, as a call, and is what is submitted. -/
def Resubmits (x y : Job × Option Answer) : Prop :=
  ∃ lost : Job, x.2 = some (.lost lost) ∧ lost.kind = .callFunc ∧ y.1 = lost.fresh

/-- The submissions of a job that may be run again `n` times: the job itself is submitted first, and
again only when it was lost. -/
structure Submits (n : Nat) (job : Job) (xs : List (Job × Option Answer)) : Prop where
  length_le : xs.length ≤ n + 1
  head : ∀ x ∈ xs.head?, x.1 = job.fresh
  chain : xs.IsChain Resubmits

theorem Submits.nil (n : Nat) (job : Job) : Submits n job [] :=
  ⟨Nat.zero_le _, by simp, .nil⟩

theorem Submits.single (n : Nat) (job : Job) (answer : Option Answer) :
    Submits n job [(job.fresh, answer)] := by
  refine ⟨Nat.succ_le_succ (Nat.zero_le n), fun x hx => ?_, .singleton _⟩
  cases hx
  rfl

theorem Submits.again {lost : Job} {xs : List (Job × Option Answer)} (hx : Submits n lost xs)
    (hkind : lost.kind = .callFunc) (job : Job) :
    Submits (n + 1) job ((job.fresh, some (.lost lost)) :: xs) := by
  refine ⟨Nat.succ_le_succ hx.length_le, fun x hx => ?_, ?_⟩
  · cases hx
    rfl
  · cases xs with
    | nil => exact .singleton _
    | cons y ys => exact List.isChain_cons_cons.2 ⟨⟨lost, rfl, hkind, hx.head y rfl⟩, hx.chain⟩

/-- A job is submitted again at most as often as it may be run again, and only when it was lost. -/
theorem Run.submits (hr : Run b spec n job h s result h' s' ds) :
    Submits n job (Guest.submissions ds) := by
  induction hr with
  | unstarted hs | stopped hs =>
    rw [hs.submissions]
    exact .nil _ _
  | refused hs | done hs | unanswered hs =>
    rw [submissions_append, hs.submissions]
    exact .single _ _ _
  | lost hs _ _ hret =>
    rw [submissions_append, submissions_submitted, hs.submissions, hret.submissions]
    exact .single _ _ _
  | again hs _ _ hret hkind _ ih =>
    rw [submissions_append, submissions_submitted, submissions_append, hs.submissions,
      hret.submissions]
    exact ih.again hkind _

/-- A job that ends well was settled without a crash by the answer to the last submission. -/
theorem Run.settled (hr : Run b spec n job h s result h' s' ds) {j : Job} (hj : result = .ok j) :
    j.crashed = false ∧ ∃ x, (Guest.submissions ds).getLast? = some (x, some (.done j)) := by
  induction hr with
  | unstarted | stopped | refused | unanswered | lost => cases hj
  | @done _ job finished =>
    unfold outcome at hj
    split at hj
    · cases hj
    · rename_i hcrashed
      cases hj
      exact ⟨by simpa using hcrashed, job.fresh, by simp⟩
  | again _ _ _ hret _ _ ih =>
    obtain ⟨hcrashed, x, hlast⟩ := ih hj
    refine ⟨hcrashed, x, ?_⟩
    simp only [submissions_append, submissions_submitted, hret.submissions, List.nil_append]
    rw [List.getLast?_append, List.getLast?_cons, hlast]
    rfl

/-! ## The table of workers -/

/-- No Lang has two workers, and the workers that were launched are those that were stopped, each once,
and those in the table. -/
structure Balanced (h : Handle) (ds : List Deed) : Prop where
  langs : (h.workers.map Prod.fst).Nodup
  workers : (started ds).Perm (ended ds ++ h.workers.map Prod.snd)

/-- The workers without that of a Lang, and that one. -/
theorem perm_filter {ws : List (String × Nat)} {worker : Nat} (hnodup : (ws.map Prod.fst).Nodup)
    (hw : ws.lookup lang = some worker) :
    (ws.map Prod.snd).Perm (worker :: (ws.filter (·.1 ≠ lang)).map Prod.snd) := by
  induction ws with
  | nil => cases hw
  | cons w ws ih =>
    obtain ⟨l, i⟩ := w
    obtain ⟨hnot, hnodup⟩ := List.nodup_cons.1 hnodup
    by_cases hl : lang = l
    · subst hl
      rw [List.lookup_cons, beq_self_eq_true] at hw
      obtain rfl := Option.some.inj hw
      have hothers : ws.filter (·.1 ≠ lang) = ws := by
        refine List.filter_eq_self.2 fun v hv => decide_eq_true ?_
        intro he
        exact hnot (List.mem_map.2 ⟨v, hv, he⟩)
      rw [List.filter_cons_of_neg (by simp), hothers]
      exact .refl _
    · rw [List.lookup_cons, beq_eq_false_iff_ne.2 hl] at hw
      rw [List.filter_cons_of_pos (by simpa using Ne.symm hl)]
      exact ((ih hnodup hw).cons i).trans (.swap _ _ _)

/-- What neither launches nor stops a worker does not count. -/
theorem Balanced.skip (hb : Balanced h log) (hs : started ds = []) (he : ended ds = []) :
    Balanced h (log ++ ds) := by
  refine ⟨hb.langs, ?_⟩
  rw [started_append, ended_append, hs, he, List.append_nil, List.append_nil]
  exact hb.workers

theorem Started.balanced_error {d : Diagnostic} (hs : Started b spec h lang s (.error d) s' ds)
    (hb : Balanced h log) : Balanced h (log ++ ds) := by
  cases hs
  exact hb.skip rfl rfl

theorem Started.balanced (hs : Started b spec h lang s (.ok h') s' ds) (hb : Balanced h log) :
    Balanced h' (log ++ ds) := by
  cases hs with
  | known =>
    rw [List.append_nil]
    exact hb
  | @launched worker _ hw =>
    have hnew : lang ∉ h.workers.map Prod.fst := by
      intro hmem
      obtain ⟨w, hin, rfl⟩ := List.mem_map.1 hmem
      exact absurd (List.lookup_eq_none_iff.1 hw w hin) (by simp)
    refine ⟨?_, ?_⟩
    · rw [List.map_append, List.map_singleton, ← List.concat_eq_append]
      exact hb.langs.concat hnew
    · have hstarted : started (log ++ [.launched spec (.ok worker)]) = started log ++ [worker] :=
        started_append _ _
      have hended : ended (log ++ [.launched spec (.ok worker)]) = ended log := by
        rw [ended_append]
        exact List.append_nil _
      rw [hstarted, hended, List.map_append, ← List.append_assoc]
      exact hb.workers.append_right _

theorem Retired.balanced (hr : Retired b h lang s h' s' ds) (hb : Balanced h log) :
    Balanced h' (log ++ ds) := by
  cases hr with
  | unknown =>
    rw [List.append_nil]
    exact hb
  | @terminated worker hw =>
    refine ⟨hb.langs.sublist (List.filter_sublist.map _), ?_⟩
    have hstarted : started (log ++ [.terminated worker]) = started log := by
      rw [started_append]
      exact List.append_nil _
    have hended : ended (log ++ [.terminated worker]) = ended log ++ [worker] := ended_append _ _
    rw [hstarted, hended, List.append_assoc]
    exact hb.workers.trans ((perm_filter hb.langs hw).append_left _)

theorem Run.balanced (hr : Run b spec n job h s result h' s' ds) (hb : Balanced h log) :
    Balanced h' (log ++ ds) := by
  induction hr generalizing log with
  | unstarted hs => exact hs.balanced_error hb
  | stopped hs => exact hs.balanced hb
  | refused hs | done hs | unanswered hs =>
    rw [← List.append_assoc]
    exact (hs.balanced hb).skip rfl rfl
  -- The account is right after the launch, the submission does not touch it, and the table loses the
  -- worker that is stopped.
  | @lost _ job lost _ _ _ _ _ _ _ ds es hs _ _ hret =>
    have hsplit : log ++ (ds ++ .submitted job.fresh (some (.lost lost)) :: es) =
        log ++ ds ++ [.submitted job.fresh (some (.lost lost))] ++ es := by simp
    rw [hsplit]
    exact hret.balanced ((hs.balanced hb).skip rfl rfl)
  | @again _ job lost _ _ _ _ _ _ _ _ _ _ ds es fs hs _ _ hret _ _ ih =>
    have hsplit : log ++ (ds ++ .submitted job.fresh (some (.lost lost)) :: (es ++ fs)) =
        log ++ ds ++ [.submitted job.fresh (some (.lost lost))] ++ es ++ fs := by simp
    rw [hsplit]
    exact ih (hret.balanced ((hs.balanced hb).skip rfl rfl))

/-- Running a job neither stops nor starts the daemon. -/
theorem Run.running (hr : Run b spec n job h s result h' s' ds) : h'.running = h.running := by
  have hstarted : ∀ {h h' : Handle} {lang : String} {s s' : σ} {ds : List Deed},
      Started b spec h lang s (.ok h') s' ds → h'.running = h.running := by
    intro h h' lang s s' ds hs
    cases hs <;> rfl
  have hretired : ∀ {h h' : Handle} {lang : String} {s s' : σ} {ds : List Deed},
      Retired b h lang s h' s' ds → h'.running = h.running := by
    intro h h' lang s s' ds hret
    cases hret <;> rfl
  induction hr with
  | unstarted => rfl
  | stopped hs | refused hs | done hs | unanswered hs => exact hstarted hs
  | lost hs _ _ hret => exact (hretired hret).trans (hstarted hs)
  | again hs _ _ hret _ _ ih => exact ih.trans ((hretired hret).trans (hstarted hs))

/-! ## Shutting down -/

variable (b) in
/-- How a handle is shut down. -/
inductive Shut (h : Handle) (s : σ) : Except Diagnostic Unit → Handle → σ → List Deed → Prop where
  | before : h.running = false → Shut h s (.ok ()) h s []
  | panicked {s' : σ} : h.running = true → b.stop s = (none, s') →
      Shut h s (.error (.critical "Guest daemon thread panicked")) { h with running := false } s' []
  | emptied {result : Except Diagnostic Unit} {s' : σ} : h.running = true →
      b.stop s = (some result, s') → Shut h s result { workers := [], running := false }
        (h.workers.foldl (fun s (_, worker) => b.terminate worker s) s')
        (h.workers.map fun w => .terminated w.2)

theorem foldl_terminate_kept (ws : List (String × Nat)) (s : σ) (log : List Deed) :
    ws.foldl (fun s (_, worker) => b.kept.terminate worker s) (s, log) =
      (ws.foldl (fun s (_, worker) => b.terminate worker s) s,
        log ++ ws.map fun w => .terminated w.2) := by
  induction ws generalizing s log with
  | nil => rw [List.map_nil, List.append_nil]; rfl
  | cons w ws ih =>
    rw [List.foldl_cons, List.foldl_cons, List.map_cons]
    exact (ih _ _).trans (by rw [List.append_assoc]; rfl)

/-- Every shutdown is one of those, and is written down as such. -/
theorem exists_shut (b : Backend σ) (h : Handle) (s : σ) (log : List Deed) :
    ∃ ds, h.shutdown b.kept (s, log) =
        ((h.shutdown b s).1, (h.shutdown b s).2.1, (h.shutdown b s).2.2, log ++ ds) ∧
      Shut b h s (h.shutdown b s).1 (h.shutdown b s).2.1 (h.shutdown b s).2.2 ds := by
  unfold shutdown
  cases hrun : h.running with
  | false => exact ⟨[], by simp, .before hrun⟩
  | true =>
    simp only [if_true]
    have hstop : b.kept.stop (s, log) = ((b.stop s).1, (b.stop s).2, log) := rfl
    rw [hstop]
    rcases hs : b.stop s with ⟨_ | result, s'⟩
    · exact ⟨[], by simp, .panicked hrun hs⟩
    · refine ⟨_, ?_, .emptied hrun hs⟩
      dsimp only
      rw [foldl_terminate_kept]

theorem Shut.balanced {result : Except Diagnostic Unit} (hs : Shut b h s result h' s' ds)
    (hb : Balanced h log) : Balanced h' (log ++ ds) := by
  cases hs with
  | before | panicked =>
    rw [List.append_nil]
    exact ⟨hb.langs, hb.workers⟩
  | emptied =>
    refine ⟨.nil, ?_⟩
    have hstarted : started (h.workers.map fun w => Deed.terminated w.2) = [] := by
      simp [started, Deed.started?]
    have hended : ended (h.workers.map fun w => Deed.terminated w.2) = h.workers.map Prod.snd := by
      simp [ended, List.filterMap_map, Function.comp_def, Deed.ended?]
    rw [started_append, ended_append, hstarted, hended, List.append_nil, List.map_nil, List.append_nil]
    exact hb.workers

theorem Shut.running {result : Except Diagnostic Unit} (hs : Shut b h s result h' s' ds) :
    h'.running = false := by
  cases hs with
  | before hrun => exact hrun
  | panicked | emptied => rfl

end

/-! ## One call after another -/

/-- A job is run, or the handle is shut down. -/
inductive Turn (b : Backend σ) : Handle × σ × List Deed → Handle × σ × List Deed → Prop where
  | runJob {spec : LaunchSpec} {job : Job} {h h' : Handle} {s s' : σ} {ds ds' : List Deed}
      {result : Except Diagnostic Job} :
      h.runJob b.kept spec job (s, ds) = some (result, h', s', ds') → Turn b (h, s, ds) (h', s', ds')
  | shutdown (h : Handle) (s : σ) (ds : List Deed) :
      Turn b (h, s, ds) (h.shutdown b.kept (s, ds)).2

section

variable {b : Backend σ} {x y : Handle × σ × List Deed}

theorem Turn.balanced (ht : Turn b x y) (hb : Balanced x.1 x.2.2) : Balanced y.1 y.2.2 := by
  cases ht with
  | @runJob spec job h _ s _ ds _ _ hrun =>
    obtain ⟨result, h', s', ds', hrun', hr⟩ := exists_run b spec 1 job h s ds
    cases hrun.symm.trans hrun'
    exact hr.balanced hb
  | shutdown h s ds =>
    obtain ⟨ds', heq, hs⟩ := exists_shut b h s ds
    rw [heq]
    exact hs.balanced hb

theorem Turn.stopped (ht : Turn b x y) (hx : x.1.running = false) : y.1.running = false := by
  cases ht with
  | @runJob spec job h _ s _ ds _ _ hrun =>
    obtain ⟨result, h', s', ds', hrun', hr⟩ := exists_run b spec 1 job h s ds
    cases hrun.symm.trans hrun'
    exact hr.running.trans hx
  | shutdown h s ds =>
    obtain ⟨ds', heq, hs⟩ := exists_shut b h s ds
    rw [heq]
    exact hs.running

/-- Workers with numbers of their own are in the table or were stopped once. -/
theorem Balanced.once {h : Handle} {ds : List Deed} (hb : Balanced h ds) (hnew : (started ds).Nodup)
    {w : Nat} (hw : w ∈ started ds) :
    (w ∈ h.workers.map Prod.snd ∧ (ended ds).count w = 0) ∨
      (w ∉ h.workers.map Prod.snd ∧ (ended ds).count w = 1) := by
  have hcount : (ended ds).count w + (h.workers.map Prod.snd).count w = 1 := by
    rw [← List.count_append, ← hb.workers.count_eq]
    exact List.count_eq_one_of_mem hnew hw
  by_cases hin : w ∈ h.workers.map Prod.snd
  · have hpos := List.count_pos_iff.2 hin
    exact .inl ⟨hin, by omega⟩
  · rw [List.count_eq_zero_of_not_mem hin] at hcount
    exact .inr ⟨hin, hcount⟩

theorem balanced_of_turns (ht : Relation.ReflTransGen (Turn b) x y) (hx : Balanced x.1 x.2.2) :
    Balanced y.1 y.2.2 := by
  induction ht with
  | refl => exact hx
  | tail _ ht ih => exact ht.balanced ih

theorem stopped_of_turns (ht : Relation.ReflTransGen (Turn b) x y) (hx : x.1.running = false) :
    y.1.running = false := by
  induction ht with
  | refl => exact hx
  | tail _ ht ih => exact ht.stopped ih

end

theorem Submits.calls {n : Nat} {job : Job} {xs : List (Job × Option Answer)} (hx : Submits n job xs) :
    ∀ y ∈ xs.tail, y.1.kind = .callFunc := by
  have hafter : ∀ x (ys : List (Job × Option Answer)), (x :: ys).IsChain Resubmits →
      ∀ y ∈ ys, y.1.kind = .callFunc := by
    intro x ys hchain
    induction ys generalizing x with
    | nil => exact List.forall_mem_nil _
    | cons y ys ih =>
      obtain ⟨⟨lost, -, hkind, hy⟩, hrest⟩ := List.isChain_cons_cons.1 hchain
      have hfresh : lost.fresh.kind = lost.kind := rfl
      have hcall : y.1.kind = .callFunc := by rw [hy, hfresh, hkind]
      exact List.forall_mem_cons.2 ⟨hcall, ih y hrest⟩
  cases xs with
  | nil => exact fun y hy => absurd hy List.not_mem_nil
  | cons x ys => exact hafter x ys hx.chain

/-- Whatever the launcher and the daemon do. Running a job comes down to at most two launches and two
submissions. The job is submitted again only after it was answered as lost, as a call, so that no
answer to a request is ever submitted again. It ends well only if the last answer settled it without
a crash.

After any number of jobs and shutdowns no Lang has two workers, and every worker that was launched
either is in the table or was stopped, once. A shutdown empties the table unless the thread of the
daemon panicked, and after a shutdown another one does nothing. -/
theorem jobs_retried_once_and_workers_kept {σ : Type} (b : Backend σ) :
    (∀ (spec : LaunchSpec) (job : Job) (h : Handle) (s : σ) (log : List Deed), ∃ result h' s' ds,
      h.runJob b.kept spec job (s, log) = some (result, h', s', log ++ ds) ∧
      h.runJob b spec job s = (if stalled ds then none else some (result, h', s')) ∧
      launches ds ≤ 2 ∧ Submits 1 job (submissions ds) ∧
      (∀ y ∈ (submissions ds).tail, y.1.kind = .callFunc) ∧
      ∀ j, result = .ok j →
        j.crashed = false ∧ ∃ x, (submissions ds).getLast? = some (x, some (.done j))) ∧
    (∀ (s₀ : σ) (h : Handle) (s : σ) (ds : List Deed),
      Relation.ReflTransGen (Turn b) ({}, s₀, []) (h, s, ds) →
      (h.workers.map Prod.fst).Nodup ∧ (started ds).Perm (ended ds ++ h.workers.map Prod.snd) ∧
      ((started ds).Nodup → ∀ w ∈ started ds,
        (w ∈ h.workers.map Prod.snd ∧ (ended ds).count w = 0) ∨
          (w ∉ h.workers.map Prod.snd ∧ (ended ds).count w = 1))) ∧
    ∀ (h : Handle) (s : σ) (log : List Deed),
      (∃ ds, h.shutdown b.kept (s, log) =
        ((h.shutdown b s).1, (h.shutdown b s).2.1, (h.shutdown b s).2.2, log ++ ds)) ∧
      (h.running = true → (b.stop s).1 ≠ none → (h.shutdown b s).2.1.workers = []) ∧
      ∀ (h' : Handle) (s' : σ) (ds' : List Deed),
        Relation.ReflTransGen (Turn b) (h.shutdown b.kept (s, log)).2 (h', s', ds') →
        h'.shutdown b s' = (.ok (), h', s') := by
  refine ⟨fun spec job h s log => ?_, fun s₀ h s ds hturns => ?_, fun h s log => ?_⟩
  · obtain ⟨result, h', s', ds, hkept, hr⟩ := exists_run b spec 1 job h s log
    exact ⟨result, h', s', ds, hkept, hr.runJobWith_eq, hr.launches_le, hr.submits, hr.submits.calls,
      fun j hj => hr.settled hj⟩
  · have hb : Balanced h ds := balanced_of_turns hturns ⟨.nil, .nil⟩
    exact ⟨hb.langs, hb.workers, fun hnew w hw => hb.once hnew hw⟩
  · obtain ⟨ds, heq, hs⟩ := exists_shut b h s log
    refine ⟨⟨ds, heq⟩, fun hrun hstop => ?_, fun h' s' ds' hturns => ?_⟩
    · generalize (h.shutdown b s).1 = result, (h.shutdown b s).2.1 = h', (h.shutdown b s).2.2 = s' at hs
      cases hs with
      | before hn =>
        rw [hrun] at hn
        cases hn
      | panicked _ hpanic => exact absurd (congrArg Prod.fst hpanic) hstop
      | emptied => rfl
    · rw [heq] at hturns
      have hstopped : h'.running = false := stopped_of_turns hturns hs.running
      rw [shutdown, hstopped]
      rfl

/-- A daemon that gives these answers one after the other, and a launcher that counts its workers. -/
def answering : Backend (List Answer × Nat) where
  launch := fun _ (answers, n) => (.ok n, answers, n + 1)
  terminate := fun _ s => s
  submit := fun _ _ (answers, n) =>
    match answers with
    | [] => none
    | a :: answers => some (a, answers, n)
  stop := fun s => (some (.ok ()), s)

/-- A call whose worker is lost is made again with another worker. The first one was stopped then, the
second one is stopped with the daemon. -/
theorem jobs_retried_once_and_workers_kept_after_loss :
    ∃ h s ds,
      ({} : Handle).runJob answering.kept ⟨"Python", "python3", "py", "driver"⟩
          (.call "Python" "f" "tmp/f.py")
          (([Answer.lost (.call "Python" "f" "tmp/f.py"),
            Answer.done ((Job.call "Python" "f" "tmp/f.py").settle .finishFunc .null)], 0), []) =
        some (.ok ((Job.call "Python" "f" "tmp/f.py").settle .finishFunc .null), h, s, ds) ∧
      started ds = [0, 1] ∧ h.workers = [("Python", 1)] ∧
      (∀ w ∈ started ds, (w ∈ h.workers.map Prod.snd ∧ (ended ds).count w = 0) ∨
        (w ∉ h.workers.map Prod.snd ∧ (ended ds).count w = 1)) ∧
      (h.shutdown answering s).2.1.workers = [] := by
  obtain ⟨-, hturns, hshut⟩ := jobs_retried_once_and_workers_kept answering
  have hrun : ∃ h s ds, ({} : Handle).runJob answering.kept ⟨"Python", "python3", "py", "driver"⟩
          (.call "Python" "f" "tmp/f.py")
          (([Answer.lost (.call "Python" "f" "tmp/f.py"),
            Answer.done ((Job.call "Python" "f" "tmp/f.py").settle .finishFunc .null)], 0), []) =
        some (.ok ((Job.call "Python" "f" "tmp/f.py").settle .finishFunc .null), h, s, ds) ∧
      started ds = [0, 1] ∧ h.workers = [("Python", 1)] ∧ h.running = true :=
    ⟨_, _, _, rfl, rfl, rfl, rfl⟩
  obtain ⟨h, s, ds, hrun, hstarted, hworkers, hrunning⟩ := hrun
  obtain ⟨-, -, honce⟩ := hturns _ h s ds (.single (.runJob hrun))
  refine ⟨h, s, ds, hrun, hstarted, hworkers, honce (by rw [hstarted]; decide), ?_⟩
  exact (hshut h s ds).2.1 hrunning (by simp [answering])

end Handle
end Guest
end Ditlang
