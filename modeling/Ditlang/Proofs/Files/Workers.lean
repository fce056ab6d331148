import Ditlang.Proofs.Files.Course
import Ditlang.Proofs.Guest.Submission

/-!
# Ditlang.Proofs.Files.Workers

What guest workers do to files. Workers at work write none, and how workers are started stays the same
(`Fleet.quiet_quiesce`); only a worker that is started as a command has its driver written first
(`Fleet.drives_launch`). So running a guest job, letting workers go on and stopping them are parts of
the course of guest files (`Session.course_runJob`, `course_settle`, `course_shutdown`).
-/

namespace Ditlang
namespace Guest
namespace Fleet

/-! ## How workers are started -/

variable {f g : Fleet} {h h' : Host} {s s' : Site}

@[simp] theorem launcher_dispatch (f : Fleet) : f.dispatch.launcher = f.launcher := by
  unfold dispatch
  split
  · rfl
  · split <;> rfl

@[simp] theorem launcher_notice (f : Fleet) (e : Event) : (f.notice e).launcher = f.launcher :=
  launcher_dispatch _

theorem launcher_readLine (f : Fleet) (i key : Nat) (line : String) :
    (f.readLine i key line).launcher = f.launcher := by
  unfold readLine
  split
  · split
    · rfl
    · split <;> exact launcher_notice _ _
  · split
    · split
      · dsimp only
        split <;> exact launcher_notice _ _
      · exact launcher_notice _ _
    · rfl

theorem launcher_sendText (f : Fleet) (i : Nat) (text : String) :
    (f.sendText i text).launcher = f.launcher := by
  refine List.foldlRecOn (motive := fun g : Fleet => g.launcher = f.launcher) _ _ rfl
    fun g hg line _ => ?_
  split
  · exact (launcher_readLine g i _ line).trans hg
  · exact hg

theorem launcher_exit (f : Fleet) (i : Nat) (w : Worker) : (f.exit i w).launcher = f.launcher := by
  unfold exit
  dsimp only
  split
  · exact launcher_notice _ _
  · rfl

theorem launcher_connect (f : Fleet) (i : Nat) (w : Worker) (reachable : Bool) :
    (f.connect i w reachable).launcher = f.launcher := by
  unfold connect
  split
  · exact launcher_sendText _ _ _
  · exact launcher_exit f i w

/-! ## Workers at work -/

/-- No file is written, and workers are started in the same way. -/
structure Quiet (s s' : Site) : Prop where
  files : s'.2.files = s.2.files
  commands : s'.1.launcher = .commands ↔ s.1.launcher = .commands

theorem Quiet.of_launcher (hf : h'.files = h.files) (hl : g.launcher = f.launcher) :
    Quiet (f, h) (g, h') :=
  ⟨hf, hl ▸ Iff.rfl⟩

theorem quiet_stepWorker {i : Nat} {w : Worker} (hs : stepWorker i w (f, h) = some (g, h')) :
    Quiet (f, h) (g, h') := by
  simp only [stepWorker] at hs
  split at hs
  · cases hs
  · split at hs
    · cases hs
      exact .of_launcher rfl (launcher_connect f i w _)
    · split at hs
      · split at hs
        · cases hs
          exact .of_launcher rfl rfl
        · cases hs
          exact .of_launcher rfl (launcher_exit f i w)
      · split at hs
        · cases hs
          exact .of_launcher rfl (launcher_exit f i w)
        · cases hs
        · cases hs
          exact .of_launcher rfl rfl
      · cases hs
        exact .of_launcher rfl (launcher_notice _ _)
      · cases hs
        exact .of_launcher rfl (launcher_sendText _ _ _)

/-- Whatever workers do until none can move, they write no file. -/
theorem quiet_quiesce {n : Nat} (hq : quiesce n (f, h) = some (g, h')) : Quiet (f, h) (g, h') := by
  induction n generalizing f h with
  | zero => cases hq
  | succ n ih =>
    rw [quiesce] at hq
    split at hq
    · cases hq
      exact .of_launcher rfl rfl
    · rename_i s hs
      obtain ⟨f', h''⟩ := s
      obtain ⟨⟨w, i⟩, -, hw⟩ := List.exists_of_findSome?_eq_some hs
      have hfirst := quiet_stepWorker hw
      have hrest := ih hq
      exact ⟨hrest.files.trans hfirst.files, hrest.commands.trans hfirst.commands⟩

/-! ## Drivers -/

/-- Something that the daemon and its workers do to files: nothing, or a driver is written. -/
inductive Drives (s : Site) : Site → Prop where
  | quiet {s' : Site} : Quiet s s' → Drives s s'
  | driver {g : Fleet} (dir : String) (spec : LaunchSpec) : s.1.launcher = .commands →
      g.launcher = .commands → Drives s (g, (s.2.writeInto dir
        (spec.lang ++ "_guest_daemon." ++ spec.extension) spec.driver).2)

abbrev Driven : Site → Site → Prop :=
  Relation.ReflTransGen Drives

theorem Driven.of_launcher (hf : h'.files = h.files) (hl : g.launcher = f.launcher) :
    Driven (f, h) (g, h') :=
  .single (.quiet (.of_launcher hf hl))

/-- A driver is written for a command, and a script is taken for a worker without one. -/
theorem drives_launch (spec : LaunchSpec) (f : Fleet) (h : Host) :
    Drives (f, h) (launch spec (f, h)).2 := by
  unfold launch
  dsimp only
  split
  · rename_i hcommands
    unfold launchCommand
    split
    · rename_i hw
      have hdriver := Drives.driver (s := (f, h)) f.tmpDir spec hcommands hcommands
      rw [hw] at hdriver
      exact hdriver
    · rename_i h₁ hw
      have hdriver : ∀ g : Fleet, g.launcher = .commands → Drives (f, h) (g, h₁) := by
        intro g hg
        have hdriver := Drives.driver (s := (f, h)) f.tmpDir spec hcommands hg
        rw [hw] at hdriver
        exact hdriver
      split
      · exact hdriver f hcommands
      · exact hdriver _ hcommands
  · rename_i scripts hscripts
    refine .quiet ⟨rfl, ?_⟩
    have hnone : f.launcher ≠ .commands := by
      rw [hscripts]
      exact nofun
    refine iff_of_false ?_ hnone
    unfold launchScripted
    dsimp only
    split <;> exact nofun

theorem driven_submit {job : Job} {worker : Option Nat} {a : Answer}
    (hs : submit job worker (f, h) = some (a, g, h')) : Driven (f, h) (g, h') := by
  simp only [submit, Option.bind_eq_bind, Option.bind_eq_some_iff] at hs
  obtain ⟨⟨f₁, h₁⟩, hq, hs⟩ := hs
  have hquiet := quiet_quiesce hq
  have hdriven : Driven (f, h) (f₁, h₁) := by
    refine .single (.quiet ⟨hquiet.files, hquiet.commands.trans ?_⟩)
    rw [launcher_dispatch]
  split at hs
  · cases hs
    exact hdriven
  · split at hs
    · split at hs
      · obtain ⟨a', -, he⟩ := Option.map_eq_some_iff.1 hs
        cases he
        exact hdriven.trans (Driven.of_launcher rfl rfl)
      · cases hs
    · cases hs

end Fleet

namespace Handle

open Fleet (Driven)

variable {hd hd' : Handle} {f g : Fleet} {h h' : Host} {spec : LaunchSpec} {s s' : Fleet.Site}

theorem driven_ensureWorker (hd : Handle) (lang : String) (spec : LaunchSpec) (s : Fleet.Site) :
    Driven s (hd.ensureWorker Fleet.backend lang spec s).2 := by
  have hl := Fleet.drives_launch spec s.1 s.2
  unfold ensureWorker
  split
  · exact .refl
  · split
    · rename_i he
      rw [show Fleet.launch spec (s.1, s.2) = Fleet.backend.launch spec s from rfl, he] at hl
      exact .single hl
    · rename_i he
      rw [show Fleet.launch spec (s.1, s.2) = Fleet.backend.launch spec s from rfl, he] at hl
      exact .single hl

theorem driven_retire {lang : String} (hr : hd.retire Fleet.backend lang s = (hd', s')) :
    Driven s s' := by
  unfold retire at hr
  split at hr
  · cases hr
    exact Fleet.Driven.of_launcher rfl rfl
  · cases hr
    exact .refl

theorem driven_runJobWith {retries : Nat} {job : Job} {result : Except Diagnostic Job}
    (hr : hd.runJobWith Fleet.backend spec retries job s = some (result, hd', s')) : Driven s s' := by
  induction retries using Nat.strongRecOn generalizing job hd s with
  | ind retries ih =>
    have hensure := driven_ensureWorker hd job.lang spec s
    cases submission_of_runJobWith hr with
    | unstarted he => rwa [he] at hensure
    | stopped he => rwa [he] at hensure
    | refused he hsub | done he _ hsub =>
      rw [he] at hensure
      exact hensure.trans (Fleet.driven_submit hsub)
    | lost he hsub hretire =>
      rw [he] at hensure
      have hlast := driven_retire hretire
      exact (hensure.trans (Fleet.driven_submit hsub)).trans hlast
    | again he hsub hretire hn hagain =>
      rw [he] at hensure
      have hmiddle := driven_retire hretire
      exact ((hensure.trans (Fleet.driven_submit hsub)).trans hmiddle).trans
        (ih _ (hn ▸ Nat.lt_succ_self _) hagain)

theorem files_shutdown (hd : Handle) (s : Fleet.Site) :
    (hd.shutdown Fleet.backend s).2.2.2.files = s.2.files := by
  have hterminate : ∀ (workers : List (String × Nat)) (s : Fleet.Site),
      (workers.foldl (fun s w => Fleet.backend.terminate w.2 s) s).2 = s.2 := by
    intro workers s
    exact List.foldlRecOn (motive := fun t : Fleet.Site => t.2 = s.2) workers _ rfl
      fun _ ht _ _ => ht
  unfold shutdown
  split
  · exact congrArg Host.files (hterminate _ _)
  · rfl

end Handle
end Guest

namespace Session

open Guest (Handle Job LaunchSpec)

variable {s s' : Session}

def withSite (s : Session) (handle : Handle) (site : Guest.Fleet.Site) : Session :=
  { s with daemon := some ⟨handle, site.1⟩, host := site.2 }

/-- What the daemon and its workers do is a part of the course. -/
theorem course_withSite (s : Session) (handle handle' : Handle) {x y : Guest.Fleet.Site}
    (h : Guest.Fleet.Driven x y) : (s.withSite handle x).Course (s.withSite handle' y) := by
  have hwork : ∀ {handle handle' : Handle} {x y : Guest.Fleet.Site}, Guest.Fleet.Quiet x y →
      (s.withSite handle x).FileStep (s.withSite handle' y) := fun hquiet =>
    .work ⟨.refl _, rfl, rfl, hquiet.files, id, fun _ hs hx => hs (hquiet.commands.2 hx)⟩
  have hrefl : ∀ x : Guest.Fleet.Site, Guest.Fleet.Quiet x x := fun x => ⟨rfl, Iff.rfl⟩
  induction h with
  | refl => exact .single (hwork (hrefl x))
  | @tail y z _ hdrives ih =>
    cases hdrives with
    | quiet hquiet => exact ih.tail (hwork hquiet)
    | @driver g dir spec hcommands hcommands' =>
      -- first the file is written, and then the fleet knows of the worker
      let host := (y.2.writeInto dir (spec.lang ++ "_guest_daemon." ++ spec.extension) spec.driver).2
      have hwritten : (s.withSite handle' y).FileStep (s.withSite handle' (y.1, host)) :=
        .driver ⟨fun hs => hs hcommands, dir, spec, rfl⟩
      have hquiet : Guest.Fleet.Quiet (y.1, host) (g, host) :=
        ⟨rfl, iff_of_true hcommands' hcommands⟩
      exact (ih.tail hwritten).tail (hwork hquiet)

theorem works_ensureDaemon (s : Session) : s.Works s.ensureDaemon.2 := by
  unfold ensureDaemon
  split
  · exact .refl s
  · rename_i hd
    refine ⟨.refl _, rfl, rfl, rfl, fun _ _ => rfl, fun _ hs => ?_⟩
    rw [Scripted, launcherNow, hd]
    exact hs

theorem daemon_ensureDaemon (s : Session) : s.ensureDaemon.2.daemon = some s.ensureDaemon.1 := by
  unfold ensureDaemon
  split
  · rename_i d hd
    exact hd
  · rfl

theorem course_runJob {spec : LaunchSpec} {job : Job} {result : Except Diagnostic Job}
    (hr : s.runJob spec job = some (result, s')) : s.Course s' := by
  have hworks := s.works_ensureDaemon
  have hdaemon := s.daemon_ensureDaemon
  unfold runJob at hr
  generalize s.ensureDaemon = start at hr hworks hdaemon
  obtain ⟨d, s₁⟩ := start
  obtain ⟨⟨_, d', host⟩, hjob, he⟩ := Option.map_eq_some_iff.1 hr
  cases he
  obtain ⟨⟨_, handle, fleet, host⟩, hrun, he⟩ := Option.map_eq_some_iff.1 hjob
  cases he
  have hsite : s₁.withSite d.handle (d.fleet, s₁.host) = s₁ := by
    rw [withSite, ← hdaemon]
  have hcourse := s₁.course_withSite d.handle handle (Handle.driven_runJobWith hrun)
  rw [hsite] at hcourse
  exact .head (.work hworks) hcourse

/-- Workers that go on are a part of the course. -/
theorem course_settle (s : Session) : s.Course s.settle := by
  unfold settle
  split
  · exact .refl
  · rename_i d hd
    have hsite : s.withSite d.handle (d.fleet, s.host) = s := by rw [withSite, ← hd]
    have hcourse : ∀ {fleet : Guest.Fleet} {host : Host},
        Guest.Fleet.Driven (d.fleet, s.host) (fleet, host) →
        s.Course { s with daemon := some { d with fleet }, host } := by
      intro fleet host hdriven
      have hwhole := s.course_withSite d.handle d.handle hdriven
      rwa [hsite] at hwhole
    unfold Guest.Daemon.settle
    cases hq : Guest.Fleet.quiesce Guest.Fleet.patience (d.fleet, s.host) with
    | some site => exact hcourse (.single (.quiet (Guest.Fleet.quiet_quiesce hq)))
    | none => exact hcourse .refl

/-- Once the daemon is stopped, workers are started as commands. -/
theorem course_shutdown (s : Session) : s.Course s.shutdown.2 := by
  unfold shutdown
  split
  · exact .refl
  · rename_i d hd
    refine .single (.work ⟨.refl _, rfl, rfl, d.handle.files_shutdown _, (fun _ hs => nomatch hs),
      fun hhanded hs => absurd ?_ hs⟩)
    show s.launcher.getD .commands = .commands
    rw [hhanded (by rw [hd]; rfl)]
    rfl

end Session
end Ditlang
