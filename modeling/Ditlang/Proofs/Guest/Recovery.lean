import Ditlang.Proofs.Guest.Passes
import Ditlang.Proofs.Guest.Submission

/-!
# Ditlang.Proofs.Guest.Recovery

What comes after a worker has failed. A `Desk` is the handle with the daemon behind it, under any
schedule. That a worker has gone is known in two places: the handle forgets a worker whose job was
lost, and the daemon marks the Lang of a connection that has ended. `Aftermath` says which of them
knows what when a job has failed, for every way in which a worker can fail it.

* `Desk.next_job_after_failure`: after a failure that is noticed (the worker disconnected, or a
  call could not be written to it) the next call begins with the launch of a worker. After one that
  is not (the worker exited before it connected, or an answer could not be written to it) the next
  job waits for the dead worker and fails again.
-/

namespace Ditlang
namespace Guest

/-- The handle with the daemon behind it. -/
structure Desk where
  handle : Handle := {}
  bench : Bench := {}

namespace Desk

/-- The bench on which a job is run. -/
def supplied (d : Desk) (starts : List (Except String Nat)) (waits : List Wait) : Bench :=
  { d.bench with starts, waits, failure := none }

def runJob (d : Desk) (spec : LaunchSpec) (job : Job) (starts : List (Except String Nat))
    (waits : List Wait) : Option (Except Diagnostic Job × Desk) :=
  (d.handle.runJob Bench.backend spec job (d.supplied starts waits)).map
    fun (result, handle, bench) => (result, { handle, bench })

/-- Lets the daemon work while there is no job. -/
def idle (d : Desk) (passes : List Pass) : Desk :=
  { d with bench := passes.foldl Bench.pass d.bench }

def shutdown (d : Desk) : Desk :=
  let stopped := d.handle.shutdown Bench.backend d.bench
  { handle := stopped.2.1, bench := stopped.2.2 }

/-- The desks that jobs and schedules lead to. -/
inductive Reached : Desk → Prop where
  | start : Reached {}
  | idle {d : Desk} (passes : List Pass) : Reached d → Reached (d.idle passes)
  | runJob {d d' : Desk} {spec : LaunchSpec} {job : Job} {starts : List (Except String Nat)}
      {waits : List Wait} {result : Except Diagnostic Job} : Reached d → job.kind.isLine →
      d.runJob spec job starts waits = some (result, d') → Reached d'
  | shutdown {d : Desk} : Reached d → Reached d.shutdown

end Desk

/-- What is known of a Lang when its worker has failed a job. -/
inductive Aftermath (lang : String) (h : Handle) (s : Loop) : Failure → Prop where
  /-- The handle has forgotten the worker. -/
  | retired {f : Failure} : f.noticed = true → h.workers.lookup lang = none → Aftermath lang h s f
  /-- The daemon knows that it has gone. -/
  | marked : h.running = true → s.Without lang True → Aftermath lang h s .disconnected
  /-- Nobody knows. -/
  | unnoticed {f : Failure} : f.noticed = false → h.running = true →
      (h.workers.lookup lang).isSome → s.Without lang False → Aftermath lang h s f

namespace Handle

open Bench

variable {spec : LaunchSpec} {retries : Nat} {job : Job} {h h' : Handle} {b b' : Bench}
  {result : Except Diagnostic Job} {lang : String}

/-- A handle that knows a worker of the Lang starts none, and one that knows none does. -/
theorem ensureWorker_cases (h : Handle) (lang : String) (spec : LaunchSpec) (b : Bench) :
    ((h.workers.lookup lang).isSome ∧ h.ensureWorker backend lang spec b = (.ok h, b)) ∨
      h.workers.lookup lang = none ∧ (h.ensureWorker backend lang spec b).2 = (b.launch spec).2 ∧
        ∀ h', (h.ensureWorker backend lang spec b).1 = .ok h' →
          h'.running = h.running ∧ (h'.workers.lookup lang).isSome := by
  unfold ensureWorker
  cases hw : h.workers.lookup lang with
  | some worker => exact .inl ⟨rfl, rfl⟩
  | none =>
    right
    have hlaunch : backend.launch spec b = b.launch spec := rfl
    simp only [Option.isSome_none, Bool.false_eq_true, if_false, hlaunch]
    split
    · rename_i worker b₁ he
      refine ⟨trivial, by rw [he], ?_⟩
      intro h' hh
      cases hh
      refine ⟨rfl, ?_⟩
      rw [List.lookup_append, hw]
      simp
    · rename_i reason b₁ he
      refine ⟨trivial, by rw [he], ?_⟩
      intro h' hh
      cases hh

theorem lookup_retire (h : Handle) (lang : String) (b : Bench) :
    (h.retire backend lang b).1.workers.lookup lang = none ∧ (h.retire backend lang b).2 = b := by
  refine ⟨lookup_of_retire rfl, ?_⟩
  unfold retire
  split <;> rfl

/-- A worker is known once it is made sure that there is one, and its failure is still to come. -/
theorem atRest_ensureWorker (hb : b.AtRest)
    (hfail : b.failure = none ∨ h.workers.lookup lang = none) {started : Except Diagnostic Handle}
    {b₁ : Bench} (he : h.ensureWorker backend lang spec b = (started, b₁)) :
    b₁.AtRest ∧ b₁.failure = none ∧
      ∀ h₁, started = .ok h₁ → (h₁.workers.lookup lang).isSome := by
  rcases ensureWorker_cases h lang spec b with ⟨hsome, he'⟩ | ⟨hnone, hb₁, hok⟩
  · rw [he'] at he
    cases he
    refine ⟨hb, hfail.resolve_right ?_, ?_⟩
    · intro hn
      rw [hn] at hsome
      cases hsome
    · intro h₁ hh
      cases hh
      exact hsome
  · rw [he] at hb₁ hok
    subst hb₁
    exact ⟨⟨hb.registered, hb.pending, hb.bound⟩, rfl, fun h₁ hh => (hok h₁ hh).2⟩

/-- When a job has been run the daemon is at rest, and what is known of its Lang depends on how the
worker failed it. -/
theorem runJobWith_aftermath (hb : b.AtRest) (hline : job.kind.isLine)
    (hfail : b.failure = none ∨ h.workers.lookup job.lang = none)
    (hr : h.runJobWith backend spec retries job b = some (result, h', b')) :
    b'.AtRest ∧ ∀ f, b'.failure = some f → Aftermath job.lang h' b'.loop f := by
  induction retries using Nat.strong_induction_on generalizing job h b with
  | _ retries ih =>
  have hnothing : ∀ {c : Bench}, c.AtRest → c.failure = none →
      c.AtRest ∧ ∀ f, c.failure = some f → Aftermath job.lang h' c.loop f := by
    intro c hc hn
    refine ⟨hc, fun f hf => ?_⟩
    rw [hn] at hf
    cases hf
  have hidle : job.fresh.active = false := rfl
  have hlang : ({ job.fresh with active := false } : Job).lang = job.lang := rfl
  cases submission_of_runJobWith hr with
  | unstarted he =>
    obtain ⟨hrest, hnone, -⟩ := atRest_ensureWorker hb hfail he
    exact hnothing hrest hnone
  | stopped he hstopped =>
    obtain ⟨hrest, hnone, -⟩ := atRest_ensureWorker hb hfail he
    exact hnothing hrest hnone
  | refused he hsub =>
    -- no other submission is under way
    obtain ⟨hrest, -, -⟩ := atRest_ensureWorker hb hfail he
    obtain ⟨-, hv⟩ := submit_settles hrest hidle hline hsub
    cases hv
  | done he hrun hsub =>
    obtain ⟨hrest, -, hknown⟩ := atRest_ensureWorker hb hfail he
    obtain ⟨hrest', hv⟩ := submit_settles hrest hidle hline hsub
    refine ⟨hrest', fun f hf => ?_⟩
    rw [hf] at hv
    cases hv with
    | broken hw => exact .marked hrun hw
    | unconnected hw => exact .unnoticed rfl hrun (hknown _ rfl) hw
    | unreachable reason hw => exact .unnoticed rfl hrun (hknown _ rfl) hw
  | @lost h₁ s₁ s₂ lost he hsub hretire =>
    obtain ⟨hrest, -, -⟩ := atRest_ensureWorker hb hfail he
    obtain ⟨hrest', hv⟩ := submit_settles hrest hidle hline hsub
    generalize hf : s₂.failure = failure at hv
    cases hv with
    | lost hnoticed =>
      obtain ⟨hnone, hsame⟩ := lookup_retire h₁ job.lang s₂
      rw [hlang] at hretire
      rw [hretire] at hnone hsame
      cases hsame
      refine ⟨hrest', fun f hf' => ?_⟩
      cases hf.symm.trans hf'
      exact .retired hnoticed hnone
  | @again n h₁ h₂ s₁ s₂ s₃ lost _ he hsub hretire hn hr =>
    obtain ⟨hrest, -, -⟩ := atRest_ensureWorker hb hfail he
    obtain ⟨hrest', hv⟩ := submit_settles hrest hidle hline hsub
    generalize s₂.failure = failure at hv
    cases hv with
    | lost hnoticed =>
      obtain ⟨hnone, hsame⟩ := lookup_retire h₁ job.lang s₂
      rw [hlang] at hretire
      rw [hretire] at hnone hsame
      cases hsame
      exact @ih n (by omega) job.fresh h₂ s₃ hrest' hline (.inr hnone) hr

/-- What a run launches is added to what was launched, first of all for a Lang without a worker. -/
theorem launches_runJobWith (hr : h.runJobWith backend spec retries job b = some (result, h', b')) :
    ∃ rest, b'.launches = (h.ensureWorker backend job.lang spec b).2.launches ++ rest := by
  induction retries using Nat.strong_induction_on generalizing job h b with
  | _ retries ih =>
  cases submission_of_runJobWith hr with
  | unstarted he =>
    rw [he]
    exact ⟨[], (List.append_nil _).symm⟩
  | stopped he =>
    rw [he]
    exact ⟨[], (List.append_nil _).symm⟩
  | refused he hsub =>
    rw [he, launches_submit hsub]
    exact ⟨[], (List.append_nil _).symm⟩
  | done he hrun hsub =>
    rw [he, launches_submit hsub]
    exact ⟨[], (List.append_nil _).symm⟩
  | @lost h₁ s₁ s₂ lost he hsub hretire =>
    have hsame := (lookup_retire h₁ lost.lang s₂).2
    rw [hretire] at hsame
    cases hsame
    rw [he, launches_submit hsub]
    exact ⟨[], (List.append_nil _).symm⟩
  | @again n h₁ h₂ s₁ s₂ s₃ lost _ he hsub hretire hn hr =>
    have hsame := (lookup_retire h₁ lost.lang s₂).2
    rw [hretire] at hsame
    cases hsame
    obtain ⟨rest, hrest⟩ := ih n (by omega) hr
    rw [he, hrest]
    rcases ensureWorker_cases h₂ lost.lang spec s₃ with ⟨-, he'⟩ | ⟨-, hb₁, -⟩
    · rw [he', launches_submit hsub]
      exact ⟨rest, rfl⟩
    · rw [hb₁]
      refine ⟨spec :: rest, ?_⟩
      rw [Bench.launch, launches_submit hsub, List.append_assoc]
      rfl

/-- Running a job begins with the launch of a worker: it comes to running it for a handle that knows
no worker of its Lang, and until then nothing was launched and nothing was waited for. -/
def Relaunches (h : Handle) (spec : LaunchSpec) (job : Job) (b : Bench) : Prop :=
  ∃ (n : Nat) (job' : Job) (h' : Handle) (b' : Bench),
    h.runJob backend spec job b = h'.runJobWith backend spec n job' b' ∧
    job'.lang = job.lang ∧ h'.workers.lookup job.lang = none ∧
    b'.launches = b.launches ∧ b'.taken = b.taken

theorem Relaunches.launches {h₀ : Handle} (h : h₀.Relaunches spec job b)
    (hr : h₀.runJob backend spec job b = some (result, h', b')) :
    ∃ rest, b'.launches = b.launches ++ spec :: rest := by
  obtain ⟨n, job', h₁, b₁, heq, hlang, hnone, hlaunches, -⟩ := h
  rw [heq] at hr
  obtain ⟨rest, hrest⟩ := launches_runJobWith hr
  rcases ensureWorker_cases h₁ job'.lang spec b₁ with ⟨hsome, -⟩ | ⟨-, hb₁, -⟩
  · rw [hlang, hnone] at hsome
    cases hsome
  · refine ⟨rest, ?_⟩
    rw [hrest, hb₁, Bench.launch, hlaunches, List.append_assoc]
    rfl

theorem relaunches_of_lookup (hnone : h.workers.lookup job.lang = none) :
    h.Relaunches spec job b :=
  ⟨1, job, h, b, rfl, rfl, hnone, rfl, rfl⟩

/-- A call to a worker that has gone is lost, the worker is forgotten, and the call is made again. -/
theorem relaunches_of_gone (hb : b.AtRest) (hcall : job.kind = .callFunc)
    (hrun : h.running = true) (hgone : b.loop.gone job.lang = true)
    (hsome : (h.workers.lookup job.lang).isSome) : h.Relaunches spec job b := by
  have hgone' : b.loop.gone job.fresh.lang = true := hgone
  obtain ⟨b₁, hsub, hlaunches, htaken⟩ := submit_of_gone hb hgone'
  obtain ⟨hnone, hsame⟩ := lookup_retire h job.lang b₁
  refine ⟨0, { job.fresh with active := false }, (h.retire backend job.lang b₁).1, b₁, ?_, rfl,
    hnone, hlaunches, htaken⟩
  have hsub' : backend.submit job.fresh (h.workers.lookup job.lang) b = _ := hsub
  have hkind : job.fresh.kind = .callFunc := hcall
  have hlang : job.fresh.lang = job.lang := rfl
  rw [runJob, runJobWith, ensureWorker, if_pos hsome]
  simp only [hrun, hsub', hkind, hlang, hsame, Bool.not_true, Bool.false_eq_true, if_false]

/-- An answer to a worker that has gone is lost, and the worker is forgotten. -/
theorem runJob_callback_of_gone (spec : LaunchSpec) (hb : b.AtRest) (hkind : job.kind = .ditlangCallback)
    (hrun : h.running = true) (hgone : b.loop.gone job.lang = true)
    (hsome : (h.workers.lookup job.lang).isSome) :
    ∃ h' b', h.runJob backend spec job b =
        some (.error (crashed job.func (job.lang ++ " worker disconnected before answering")), h', b') ∧
      h'.workers.lookup job.lang = none ∧ b'.taken = b.taken := by
  have hgone' : b.loop.gone job.fresh.lang = true := hgone
  obtain ⟨b₁, hsub, -, htaken⟩ := submit_of_gone hb hgone'
  obtain ⟨hnone, hsame⟩ := lookup_retire h job.lang b₁
  have hsub' : backend.submit job.fresh (h.workers.lookup job.lang) b = _ := hsub
  have hfresh : job.fresh.kind = .ditlangCallback := hkind
  have hlang : job.fresh.lang = job.lang := rfl
  refine ⟨_, b₁, ?_, hnone, htaken⟩
  rw [runJob, runJobWith, ensureWorker, if_pos hsome]
  simp only [hrun, hsub', hfresh, hlang, hsame, Bool.not_true, Bool.false_eq_true, if_false]
  rfl

/-- Where nobody knows that the worker has gone, the next job is submitted as if it were there. -/
theorem runJobWith_of_unnoticed (hb : b.AtRest) (hrun : h.running = true)
    (hsome : (h.workers.lookup job.lang).isSome) (hw : b.loop.Without job.lang False)
    (hsilent : ∀ w ∈ b.waits, Silent job.lang w.passes)
    (hr : h.runJobWith backend spec retries job b = some (result, h', b')) :
    b'.launches = b.launches ∧ b'.failure = some .unconnected ∧
      result = outcome (job.settle .crash (.str (job.lang ++ " worker exited before it connected"))) := by
  unfold runJobWith at hr
  rw [ensureWorker, if_pos hsome] at hr
  simp only [hrun, Bool.not_true, Bool.false_eq_true, if_false] at hr
  have hanswer : ∀ a b₁, backend.submit job.fresh (h.workers.lookup job.lang) b = some (a, b₁) →
      b₁.launches = b.launches ∧ b₁.failure = some .unconnected ∧
        a = .done (job.settle .crash (.str (job.lang ++ " worker exited before it connected"))) := by
    intro a b₁ hsub
    have hw' : b.loop.Without job.fresh.lang False := hw
    obtain ⟨hf, hv⟩ := submit_waiting hb rfl hw' hsilent hsub
    refine ⟨launches_submit hsub, hf, ?_⟩
    cases hv with
    | unconnected => rfl
    | lost hn => cases hn
  split at hr
  · cases hr
  · rename_i hsub
    obtain ⟨-, -, he⟩ := hanswer _ _ hsub
    cases he
  · rename_i hsub
    obtain ⟨hl, hf, he⟩ := hanswer _ _ hsub
    cases he
    cases hr
    exact ⟨hl, hf, rfl⟩
  · rename_i hsub
    obtain ⟨-, -, he⟩ := hanswer _ _ hsub
    cases he

end Handle

theorem Daemon.exists_runJob (d : Daemon) (spec : LaunchSpec) (job : Job) (h : Host)
    (p : Diagnostic → Daemon → Host → Bool)
    (hp : (d.runJob spec job h).any (fun (result, d', h') =>
      match result with
      | .error e => p e d' h'
      | .ok _ => false) = true) :
    ∃ e d' h', d.runJob spec job h = some (.error e, d', h') ∧ p e d' h' = true := by
  obtain ⟨⟨result, d', h'⟩, hrun, hp⟩ := (Option.any_eq_true _ _).1 hp
  cases result with
  | error e => exact ⟨e, d', h', hrun, hp⟩
  | ok j => cases hp

namespace Desk

variable {d d' : Desk} {lang : String} {passes : List Pass}

theorem runJob_eq_some {spec : LaunchSpec} {job : Job} {starts : List (Except String Nat)}
    {waits : List Wait} {result : Except Diagnostic Job}
    (h : d.runJob spec job starts waits = some (result, d')) :
    d.handle.runJob Bench.backend spec job (d.supplied starts waits) =
      some (result, d'.handle, d'.bench) := by
  obtain ⟨⟨r, h', b'⟩, hr, he⟩ := Option.map_eq_some_iff.1 h
  cases he
  exact hr

theorem atRest_supplied (h : d.bench.AtRest) (starts : List (Except String Nat))
    (waits : List Wait) : (d.supplied starts waits).AtRest :=
  ⟨h.registered, h.pending, h.bound⟩

theorem atRest_idle (h : d.bench.AtRest) (passes : List Pass) : (d.idle passes).bench.AtRest := by
  induction passes generalizing d with
  | nil => exact h
  | cons t passes ih => exact ih (d := d.idle [t]) (h.pass t)

/-- While there is no job nothing is launched, and what is known of a Lang stays as it is if none of
its workers becomes known. -/
theorem idle_without {lost : Prop} (hw : d.bench.loop.Without lang lost)
    (hsilent : Silent lang passes) : (d.idle passes).bench.loop.Without lang lost := by
  induction passes generalizing d with
  | nil => exact hw
  | cons t passes ih =>
    refine ih (d := d.idle [t]) (hw.pass (hsilent t List.mem_cons_self)) ?_
    exact fun t' ht' => hsilent t' (List.mem_cons_of_mem _ ht')

theorem launches_idle (d : Desk) (passes : List Pass) :
    (d.idle passes).bench.launches = d.bench.launches := by
  induction passes generalizing d with
  | nil => rfl
  | cons t passes ih => exact ih (d.idle [t])

theorem atRest_shutdown (h : d.bench.AtRest) : d.shutdown.bench.AtRest := by
  simp only [shutdown, Handle.shutdown]
  split
  · have hstop : d.bench.loop.teardown.2 = { d.bench.loop with connections := [], readers := [] } := by
      simp [Loop.teardown, h.pending]
    simp only [Bench.backend, hstop, List.foldl_fixed]
    exact ⟨⟨.nil, .nil, by simp⟩, h.pending, h.bound⟩
  · exact h

/-- Between two jobs the daemon is at rest. -/
theorem Reached.atRest (h : d.Reached) : d.bench.AtRest := by
  induction h with
  | start => exact ⟨⟨.nil, .nil, by simp⟩, rfl, by simp⟩
  | idle passes _ ih => exact atRest_idle ih passes
  | @runJob d d' spec job starts waits result _ hline hr ih =>
    exact (Handle.runJobWith_aftermath (atRest_supplied ih starts waits) hline (.inl rfl)
      (runJob_eq_some hr)).1
  | shutdown _ ih => exact atRest_shutdown ih

/-- After a job for a Lang whose worker failed it, and any time in which no worker of the Lang becomes
known, it depends on the failure what the next job for the Lang meets.

If the worker disconnected, or a call could not be written to it, a call begins with the launch of a
worker. An answer, which nobody is left to wait for, may be lost without one; then the handle knows
no worker any more, and nothing was waited for.

If the worker exited before it connected, or an answer could not be written to it, the job launches
nothing. Unless a worker becomes known it waits, and is settled only by the report that the worker
has exited, so that the next job meets the same. -/
theorem next_job_after_failure (hd : d.Reached) {spec : LaunchSpec} {job : Job}
    (hline : job.kind.isLine) {starts : List (Except String Nat)} {waits : List Wait} {e : Diagnostic}
    (hrun : d.runJob spec job starts waits = some (.error e, d')) {f : Failure}
    (hf : d'.bench.failure = some f) (hsilent : Silent job.lang passes) {next : Job}
    (hnext : next.kind.isLine) (hlang : next.lang = job.lang) (spec' : LaunchSpec)
    (starts' : List (Except String Nat)) (waits' : List Wait) :
    (f.noticed = true →
      (d'.idle passes).handle.Relaunches spec' next ((d'.idle passes).supplied starts' waits') ∧
        (∀ result d'', (d'.idle passes).runJob spec' next starts' waits' = some (result, d'') →
          ∃ rest, d''.bench.launches = d'.bench.launches ++ spec' :: rest) ∨
      next.kind = .ditlangCallback ∧
        ∃ d'', (d'.idle passes).runJob spec' next starts' waits' =
            some (.error (Handle.crashed next.func
              (next.lang ++ " worker disconnected before answering")), d'') ∧
          d''.handle.workers.lookup job.lang = none ∧
          d''.bench.taken = (d'.idle passes).bench.taken) ∧
    (f.noticed = false → (∀ w ∈ waits', Silent job.lang w.passes) →
      ∀ result d'', (d'.idle passes).runJob spec' next starts' waits' = some (result, d'') →
        d''.bench.launches = d'.bench.launches ∧ d''.bench.failure = some .unconnected ∧
        result = Handle.outcome (next.settle .crash
          (.str (next.lang ++ " worker exited before it connected")))) := by
  obtain ⟨hrest, hafter⟩ := Handle.runJobWith_aftermath (atRest_supplied hd.atRest starts waits)
    hline (.inl rfl) (runJob_eq_some hrun)
  have hafter := hafter f hf
  have hsupplied := atRest_supplied (atRest_idle hrest passes) starts' waits'
  have hlaunches := launches_idle d' passes
  rw [← hlang] at hsilent hafter ⊢
  constructor
  · intro hnoticed
    have hgrows : (d'.idle passes).handle.Relaunches spec' next
          ((d'.idle passes).supplied starts' waits') →
        (d'.idle passes).handle.Relaunches spec' next ((d'.idle passes).supplied starts' waits') ∧
          ∀ result d'', (d'.idle passes).runJob spec' next starts' waits' = some (result, d'') →
            ∃ rest, d''.bench.launches = d'.bench.launches ++ spec' :: rest := by
      refine fun hrelaunches => ⟨hrelaunches, fun result d'' hr => ?_⟩
      obtain ⟨rest, hrest⟩ := hrelaunches.launches (runJob_eq_some hr)
      exact ⟨rest, hrest.trans (by rw [supplied, hlaunches])⟩
    cases hafter with
    | retired _ hnone => exact .inl (hgrows (Handle.relaunches_of_lookup hnone))
    | unnoticed hn =>
      rw [hnoticed] at hn
      cases hn
    | marked hrunning hw =>
      cases hworker : d'.handle.workers.lookup next.lang with
      | none => exact .inl (hgrows (Handle.relaunches_of_lookup hworker))
      | some worker =>
        have hw' := idle_without hw hsilent
        have hgone : ((d'.idle passes).supplied starts' waits').loop.gone next.lang = true := by
          have hm := hw'.mark.2 trivial
          simp [supplied, Loop.gone, hw'.connected, hm]
        have hsome : (d'.handle.workers.lookup next.lang).isSome := by
          rw [hworker]
          rfl
        by_cases hcall : next.kind = .callFunc
        · exact .inl (hgrows
            (Handle.relaunches_of_gone hsupplied hcall hrunning hgone hsome))
        · have hcallback : next.kind = .ditlangCallback := by
            revert hnext hcall
            cases next.kind <;> simp [JobKind.isLine]
          obtain ⟨h'', b'', hr, hnone, htaken⟩ :=
            Handle.runJob_callback_of_gone spec' hsupplied hcallback hrunning hgone hsome
          exact .inr ⟨hcallback, ⟨h'', b''⟩, congrArg (Option.map _) hr, hnone, htaken⟩
  · intro hunnoticed hwaits result d'' hr
    cases hafter with
    | retired hn =>
      rw [hunnoticed] at hn
      cases hn
    | marked => cases hunnoticed
    | unnoticed _ hrunning hsome hw =>
      obtain ⟨hl, hf, hresult⟩ := Handle.runJobWith_of_unnoticed hsupplied hrunning hsome
        (idle_without hw hsilent) hwaits (runJob_eq_some hr)
      exact ⟨hl.trans hlaunches, hf, hresult⟩

def python : LaunchSpec := ⟨"Python", "python3", "py", "driver"⟩

def pythonCall : Job := .call "Python" "f" "tmp/f.py"

/-- A worker disconnects in the middle of a call, and another one exits before it connects. Whatever
comes after the first, the next call begins with the launch of a worker; what is run after the
second launches nothing, unless a worker becomes known. -/
theorem next_job_after_failure_of_python :
    (∃ e d', Desk.runJob {} python pythonCall [.ok 0] [.of [.accept, .event (.connected 0 "Python"),
          .event (.message 0 .heart), .event (.closed 0)]] = some (.error e, d') ∧
      d'.bench.failure = some .disconnected ∧
      ∀ starts waits,
        let d := d'.idle [{ move := .accept }, { move := .event (.connected 1 "JavaScript") }]
        d.handle.Relaunches python pythonCall (d.supplied starts waits)) ∧
    ∃ e d', Desk.runJob {} python pythonCall [.ok 0] [.of [.exited "Python"]] = some (.error e, d') ∧
      d'.bench.failure = some .unconnected ∧
      ∀ starts waits, (∀ w ∈ waits, Silent "Python" w.passes) →
        ∀ result d'', d'.runJob python pythonCall starts waits = some (result, d'') →
          d''.bench.launches = [python] := by
  have hnext : pythonCall.kind.isLine := rfl
  constructor
  · have hbroken : ∃ e d', Desk.runJob {} python pythonCall [.ok 0]
        [.of [.accept, .event (.connected 0 "Python"), .event (.message 0 .heart),
          .event (.closed 0)]] = some (.error e, d') ∧ d'.bench.failure = some .disconnected :=
      ⟨_, _, rfl, rfl⟩
    obtain ⟨e, d', hrun, hf⟩ := hbroken
    refine ⟨e, d', hrun, hf, fun starts waits => ?_⟩
    have hsilent : Silent pythonCall.lang
        [{ move := .accept }, { move := .event (.connected 1 "JavaScript") }] := by
      simp [Silent, Move.Announces, pythonCall, Job.call]
    have hafter :=
      (next_job_after_failure .start hnext hrun hf hsilent hnext rfl python starts waits).1 rfl
    rcases hafter with ⟨h, -⟩ | ⟨h, -⟩
    · exact h
    · cases h
  · have hunseen : ∃ e d', Desk.runJob {} python pythonCall [.ok 0] [.of [.exited "Python"]] =
        some (.error e, d') ∧ d'.bench.failure = some .unconnected ∧ d'.bench.launches = [python] :=
      ⟨_, _, rfl, rfl, rfl⟩
    obtain ⟨e, d', hrun, hf, hl⟩ := hunseen
    refine ⟨e, d', hrun, hf, fun starts waits hwaits result d'' hr => ?_⟩
    have hsilent : Silent pythonCall.lang [] := fun _ ht => nomatch ht
    have hafter :=
      (next_job_after_failure .start hnext hrun hf hsilent hnext rfl python starts waits).2 rfl
    exact (hafter hwaits result d'' hr).1.trans hl

/-- A worker that exits before it connects is not replaced: the second call waits for it, although
there is another one to start. Nor is a worker to which an answer cannot be written. -/
theorem dead_worker_waited_for :
    (∃ e₁ d₁ h₁ e₂ d₂ h₂, (Daemon.start (.scripted [.silent, .silent]) "tmp").runJob
          python pythonCall
          { files := .startingIn [] } = some (.error e₁, d₁, h₁) ∧
        d₁.runJob python pythonCall h₁ =
          some (.error e₂, d₂, h₂) ∧
        e₂.message = "Guest function 'f' crashed:\nPython worker exited before it connected" ∧
        d₂.fleet.workers.size = 1) ∧
    ∃ d₁ j d₂ e₂ d₃ e₃,
      Desk.runJob {} python pythonCall [.ok 0]
        [.of [.accept, .event (.connected 0 "Python"),
          .event (.message 0 (.exeDitlang (.str "1")))]] = some (.ok j, d₁) ∧
      d₁.runJob python (j.callback .null) []
        [{ write := fun _ _ => some "Broken pipe" }] = some (.error e₂, d₂) ∧
      d₂.runJob python pythonCall [.ok 1]
        [.of [.exited "Python"]] = some (.error e₃, d₃) ∧
      d₃.bench.launches = [python] := by
  constructor
  · obtain ⟨e₁, d₁, h₁, hrun, hp⟩ := Daemon.exists_runJob
      (Daemon.start (.scripted [.silent, .silent]) "tmp") python pythonCall
      { files := .startingIn [] }
      (fun _ d₁ h₁ =>
        (d₁.runJob python pythonCall h₁).any
          fun (result, d₂, _) =>
            match result with
            | .error e =>
              e.message == "Guest function 'f' crashed:\nPython worker exited before it connected" &&
                d₂.fleet.workers.size == 1
            | .ok _ => false)
      (by decide +kernel)
    obtain ⟨e₂, d₂, h₂, hrun', hp⟩ := Daemon.exists_runJob _ _ _ _ (fun e d₂ _ =>
      e.message == "Guest function 'f' crashed:\nPython worker exited before it connected" &&
        d₂.fleet.workers.size == 1) hp
    simp only [Bool.and_eq_true, beq_iff_eq] at hp
    exact ⟨e₁, d₁, h₁, e₂, d₂, h₂, hrun, hrun', hp⟩
  · exact ⟨_, _, _, _, _, _, rfl, rfl, rfl, rfl⟩

end Desk
end Guest
end Ditlang
