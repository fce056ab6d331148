import Ditlang.Proofs.Session.Conversations

/-!
# Ditlang.Proofs.Session.Langs

Which worker runs the guest functions of which Lang. A function has a Lang with its properties,
among them what is to be launched for it; but a job goes to the worker of a Lang by the name of the
Lang only, and the properties count only when a worker is launched.

* `Reached.served`: every worker was launched for a function that was called, and from what the Lang
  of that function said. The jobs that it was given are those of functions whose Langs have the name
  of its own, and where the Lang of a function says something else, the worker was there before.
* `run_by_worker_of_other_lang`: a Lang that is merged over the one of the prelude keeps its name,
  so that its function goes to the worker that runs already, whatever its properties are.
-/

namespace Ditlang

open Guest

namespace Session

variable {s s' : Session} {os : List Order}

theorem Reached.past (hs : s.Reached) : ∃ os, s.Past os := by
  induction hs with
  | start mainPath tmpDir launcher host => exact ⟨[], .start mainPath tmpDir launcher host⟩
  | runMain hs hrun ih =>
    obtain ⟨os, hos⟩ := ih
    obtain ⟨more, hmore⟩ := (runMain_ends hs.sound hrun).2.orders os hos
    exact ⟨os ++ more, hmore⟩
  | runFile hs hrun ih =>
    obtain ⟨os, hos⟩ := ih
    obtain ⟨s₁, hs₁, hsteps, hd, rfl | ⟨view, whole, hmain⟩⟩ := runFile_cases hs.sound hrun
    · exact ⟨os, hos.work hsteps hd⟩
    · obtain ⟨more, hmore⟩ := (runMain_ends hs₁ hmain).2.orders os (hos.work hsteps hd)
      exact ⟨os ++ more, hmore⟩
  | settle _ ih =>
    obtain ⟨os, hos⟩ := ih
    exact ⟨os, hos.settle⟩
  | shutdown _ ih =>
    obtain ⟨os, hos⟩ := ih
    exact ⟨[], hos.shutdown⟩
  | setHost host _ ih =>
    obtain ⟨os, hos⟩ := ih
    exact ⟨os, hos.work .refl rfl⟩

theorem Past.staffed (hs : s.Past os) {d : Daemon} (hd : s.daemon = some d) :
    ∃ roster, d.fleet.Staffed d.handle.workers roster none (Gave os roster) ∧
      ∀ p ∈ roster, ∃ o ∈ os, p.spec = o.spec := by
  have hmanned := hs.manned
  rw [Manned, hd] at hmanned
  exact hmanned

/-- Langs that have one name say the same about what is to be launched. -/
def Uniform (os : List Order) : Prop :=
  ∀ o ∈ os, ∀ o' ∈ os, o.spec.lang = o'.spec.lang → o.spec = o'.spec

/-- Whatever programs were run, every worker was launched from the properties of the Lang of a
function that was called. A worker that announces its own Lang is given the jobs of some of the
functions that were called, each at most once, in order, and all of them for Langs with the name of
its own. It was launched from the properties of the Lang of such a function, unless it was known for
that name before the function was called; so that it was in any case if Langs with one name have the
same properties. -/
theorem Reached.served (hs : s.Reached) :
    ∃ os : List Order, s.Past os ∧ (∀ o ∈ os, o.Own s.heap o.job) ∧
      ∀ d, s.daemon = some d → ∀ i w, d.fleet.Has i w →
        (∃ o ∈ os, w.spec = o.spec) ∧
        (w.profile.Honest → ∃ given : List Order, given.Sublist os ∧
          w.jobs = given.map (·.job.fresh) ∧
          ∀ o ∈ given, w.spec.lang = o.spec.lang ∧ (w.spec = o.spec ∨ o.known = some i) ∧
            (Uniform os → w.spec = o.spec)) := by
  obtain ⟨os, hos⟩ := hs.past
  refine ⟨os, hos, hos.own, fun d hd i w hw => ?_⟩
  obtain ⟨roster, hstaffed, hroster⟩ := hos.staffed hd
  have hprofile := hstaffed.getElem?_roster hw
  obtain ⟨first, hfirst, hspec⟩ := hroster _ (List.mem_of_getElem? hprofile)
  refine ⟨⟨first, hfirst, hspec⟩, fun hhonest => ?_⟩
  have hgave : Gave os roster i w.jobs := by
    cases hstaffed.given i w hw hhonest with
    | before hgave => exact hgave
    | now _ _ hdue => cases hdue
  obtain ⟨given, hsub, hjobs, hgiven⟩ := hgave
  refine ⟨given, hsub, hjobs, fun o ho => ?_⟩
  obtain ⟨p, hp, hname, hfrom⟩ := hgiven o ho
  cases hprofile.symm.trans hp
  have hlang : w.spec.lang = o.spec.lang := hname.trans (hos.own o (hsub.subset ho)).lang
  refine ⟨hlang, hfrom, fun huniform => ?_⟩
  have hsame := huniform first hfirst o (hsub.subset ho)
  exact hspec.trans (hsame (hspec ▸ hlang))

/-- A worker that announces its own Lang was launched from an executable, and was given the jobs of
some functions. -/
def Ran (s : Session) (i : Nat) (executable : String) (funcs : List String) : Prop :=
  ∃ d w, s.daemon = some d ∧ d.fleet.Has i w ∧ w.profile.Honest ∧ w.spec.executable = executable ∧
    w.jobs.map (·.func) = funcs

def ran (s : Session) (i : Nat) (executable : String) (funcs : List String) : Bool :=
  s.daemon.any fun d => d.fleet.workers[i]?.any fun w =>
    decide (w.profile.Honest ∧ w.spec.executable = executable ∧ w.jobs.map (·.func) = funcs)

theorem ran_of_ran {i : Nat} {executable : String} {funcs : List String}
    (h : s.ran i executable funcs = true) : s.Ran i executable funcs := by
  obtain ⟨d, hd, h⟩ := (Option.any_eq_true _ _).1 h
  obtain ⟨w, hw, h⟩ := (Option.any_eq_true _ _).1 h
  exact ⟨d, w, hd, hw, of_decide_eq_true h⟩

/-- What the Lang of a guest function says is to be launched. -/
def specOf? (s : Session) (func : String) : Option LaunchSpec :=
  match s.get? func with
  | some (.funcRef f) =>
    match (s.heap.container f).kind with
    | .func { lang := .guest lang, .. } => (Eval.launchSpec s.heap lang).toOption
    | _ => none
  | _ => none

end Session

/-- A Python function and a JavaScript function are called: each of the two workers that were
launched is given the job of one of them. -/
theorem served_of_two_langs :
    ∃ result s, (Session.scripted [.plays none [.recv, .finish] true,
        .plays none [.recv, .finish] true]).evalSource
          "func Python void f() \x7b pass \x7d func JavaScript void g() \x7b pass \x7d f(); g();" =
            some (result, s) ∧
      ∃ os d, s.Past os ∧ s.daemon = some d ∧
        ∀ run ∈ [(0, "python3", "f"), (1, "node", "g")], ∃ w, d.fleet.Has run.1 w ∧
          w.spec.executable = run.2.1 ∧ ∃ o ∈ os, o.Own s.heap o.job ∧ o.job.func = run.2.2 ∧
            w.jobs = [o.job.fresh] ∧ w.spec.lang = o.spec.lang := by
  obtain ⟨result, s, heval, hp⟩ := Session.exists_evalSource
    (Session.scripted [.plays none [.recv, .finish] true, .plays none [.recv, .finish] true])
    "func Python void f() \x7b pass \x7d func JavaScript void g() \x7b pass \x7d f(); g();"
    (fun s => s.ran 0 "python3" ["f"] && s.ran 1 "node" ["g"])
    (by decide +kernel)
  obtain ⟨hf, hg⟩ := Bool.and_eq_true_iff.1 hp
  obtain ⟨os, hos, hown, hserved⟩ :=
    Session.Reached.served ((Session.Reached.start _ _ _ _).evalSource heval)
  obtain ⟨d, -, hd, -⟩ := Session.ran_of_ran hf
  have hone : ∀ {i executable func}, s.Ran i executable [func] → ∃ w, d.fleet.Has i w ∧
      w.spec.executable = executable ∧ ∃ o ∈ os, o.Own s.heap o.job ∧ o.job.func = func ∧
        w.jobs = [o.job.fresh] ∧ w.spec.lang = o.spec.lang := by
    rintro i executable func ⟨_, w, hd', hw, hhonest, hexe, hfuncs⟩
    cases hd.symm.trans hd'
    obtain ⟨given, hsub, hjobs, hgiven⟩ := (hserved d hd i w hw).2 hhonest
    rw [hjobs, List.map_map, List.map_eq_singleton_iff] at hfuncs
    obtain ⟨o, rfl, hfunc⟩ := hfuncs
    have ho := hsub.subset (List.mem_singleton_self o)
    exact ⟨w, hw, hexe, o, ho, hown o ho, hfunc, hjobs, (hgiven o (List.mem_singleton_self o)).1⟩
  refine ⟨result, s, heval, os, d, hos, hd, fun run hrun => ?_⟩
  simp only [List.mem_cons, List.not_mem_nil, or_false] at hrun
  rcases hrun with rfl | rfl
  · exact hone (Session.ran_of_ran hf)
  · exact hone (Session.ran_of_ran hg)

/-- A Lang is merged over Python after a Python function was called. A function of the merged Lang
goes to the worker of Python, which was launched from another executable. -/
theorem run_by_worker_of_other_lang :
    ∃ result s result' s' spec,
      (Session.scripted [.plays none [.recv, .finish] true,
        .plays none [.recv, .finish] true]).evalSource
          "func Python void f() \x7b pass \x7d f();" = some (result, s) ∧
      s.evalSource ("lang Python \x7b Str executable_path = \"other\"; \x7d " ++
        "func Python void g() \x7b pass \x7d g();") = some (result', s') ∧
      s'.specOf? "g" = some spec ∧ spec.lang = "Python" ∧ spec.executable = "other" ∧
      s'.Ran 0 "python3" ["f", "g"] := by
  obtain ⟨result, s, heval, hp⟩ := Session.exists_evalSource
    (Session.scripted [.plays none [.recv, .finish] true, .plays none [.recv, .finish] true])
    "func Python void f() \x7b pass \x7d f();"
    (fun s => (s.evalSource ("lang Python \x7b Str executable_path = \"other\"; \x7d " ++
      "func Python void g() \x7b pass \x7d g();")).any fun r =>
        r.2.ran 0 "python3" ["f", "g"] &&
          (r.2.specOf? "g").any fun spec => spec.lang == "Python" && spec.executable == "other")
    (by decide +kernel)
  obtain ⟨result', s', heval', hp'⟩ := Session.exists_evalSource s _
    (fun s' => s'.ran 0 "python3" ["f", "g"] &&
      (s'.specOf? "g").any fun spec => spec.lang == "Python" && spec.executable == "other") hp
  obtain ⟨hran, hspec⟩ := Bool.and_eq_true_iff.1 hp'
  obtain ⟨spec, hg, hspec⟩ := (Option.any_eq_true _ _).1 hspec
  obtain ⟨hlang, hexe⟩ := Bool.and_eq_true_iff.1 hspec
  exact ⟨result, s, result', s', spec, heval, heval', hg, eq_of_beq hlang, eq_of_beq hexe,
    Session.ran_of_ran hran⟩

end Ditlang
