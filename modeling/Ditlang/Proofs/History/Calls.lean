import Ditlang.Proofs.History.Running

/-!
# Ditlang.Proofs.History.Calls

Guest functions under the law of the log. The text of a guest body is prepared under an event of its own,
so that a fault in it has its place there. After a job was run there is a daemon, and only then can a
fault of the interpreter itself be reported.
-/

namespace Ditlang

theorem Session.log_runJob {s s' : Session} {spec : Guest.LaunchSpec} {job : Guest.Job}
    {result : Except Diagnostic Guest.Job} (hr : s.runJob spec job = some (result, s')) :
    s'.log = s.log := by
  obtain ⟨x, -, he⟩ := Option.map_eq_some_iff.1 hr
  cases he
  show s.ensureDaemon.2.log = s.log
  unfold Session.ensureDaemon
  split <;> rfl

namespace Eval

variable {α β : Type} {a : Activation} {outer : List Activation} {h : Heap} {d : Deeper}

/-! ## The file of a guest function -/

/-- A change of the session that keeps its store, its log and its daemon. -/
theorem keeps_modifySession {f : Session → Session}
    (hf : ∀ s : Session, (f s).heap = s.heap ∧ (f s).log = s.log ∧ (f s).daemon = s.daemon ∧
      (f s).prelude = s.prelude ∧ (f s).main = s.main) :
    Obeys (logLaw a outer) h (modifySession f) fun h' _ => h' = h := by
  rintro s hs rfl
  obtain ⟨hheap, hlog, hdaemon, hprelude, hmain⟩ := hf s.session
  have hsound : (f s.session).Sound :=
    ⟨hheap ▸ hs.sound.session.heap, by rw [hprelude, hheap]; exact hs.sound.session.prelude,
      by rw [hmain, hheap]; exact hs.sound.session.main⟩
  have hsteps : s.session.heap.Steps (f s.session).heap := hheap ▸ .refl
  have hcodes : s.session.heap.Codes (f s.session).heap := hheap ▸ .refl _
  refine ⟨hs.setSession hsound hsteps hcodes hlog (hs.session.unlocated.of_daemon hdaemon),
    hsteps, ⟨hsteps, ?_, ?_⟩, hheap⟩
  · exact hlog ▸ List.suffix_refl _
  · exact hdaemon ▸ id

/-- A fault in the text of a guest body is placed there. -/
theorem keeps_fence (func : ContainerId) {b : Body} (hv : b.view.Placed) (markers : Guest.Markers) :
    Obeys (logLaw a outer) h (note (.fenced func b.path b.view) >>= fun _ => guestSource b markers)
      fun h' _ => h' = h := by
  rintro s hs rfl
  have hnote := hs.note (e := .fenced func b.path b.view) (fun _ => rfl) (fun _ => rfl) (fun _ => rfl)
    nofun (hs.session.recorded.kept.fenced hv)
  show (guestSource b markers _).Obeys _ _ _
  unfold guestSource
  cases hpre : Guest.preprocess b.view markers with
  | ok text => exact ⟨hnote, .refl, .note _ _, rfl⟩
  | error e =>
    obtain ⟨horigin, hkind, l, hl, hon⟩ := Guest.preprocess_on hv hpre
    have hat := Origin.at_lineText hon b.path
    have he : e.annotate b.path l (b.view.lineText l.pos) =
        { e with origin := some ⟨b.path, l, b.view.lineText l.pos⟩, pending := none } := by
      simp [Diagnostic.annotate, Diagnostic.isAnnotated, horigin, hl]
    simp only [Except.mapError, hl, Option.getD_some, he]
    exact ⟨hnote.toInside, .refl, .note _ _, .fenced rfl rfl hat, fun hc => absurd hc hkind⟩

theorem keeps_claimFileName (fileOf : String → String) (base : String) :
    Obeys (logLaw a outer) h (claimFileName fileOf base) fun h' _ => h' = h := by
  unfold claimFileName
  refine obeys_session.bind_same fun s _ => ?_
  refine (keeps_modifySession fun _ => ?_).bind_kept fun _ => .pure rfl
  exact ⟨rfl, rfl, rfl, rfl, rfl⟩

theorem keeps_writeGuestFile (name contents : String) :
    Obeys (logLaw a outer) h (writeGuestFile name contents) fun h' _ => h' = h := by
  unfold writeGuestFile
  refine obeys_session.bind_same fun s _ => ?_
  refine (keeps_modifySession ?_).bind_kept fun _ => ?_
  · exact fun _ => ⟨rfl, rfl, rfl, rfl, rfl⟩
  split
  · exact .pure rfl
  · exact fun s hs _ => ⟨hs.toInside, .refl, .refl _, .io _, False.elim⟩

/-- A function keeps its file. -/
theorem keeps_keepFile {func : ContainerId} {data : FuncData}
    (hk : (h.container func).kind.Becomes (.func data)) :
    Obeys (logLaw a outer) h (setHeap (h.modifyContainer func fun x => { x with kind := .func data }))
      fun _ _ => True := by
  rintro s hs rfl
  have hsteps : s.session.heap.Steps _ := .single (.keepFile hk)
  exact ⟨hs.setSession (hs.sound.session.setHeap hsteps) hsteps (Heap.codes_keepFile hk) rfl
    (hs.session.unlocated.of_daemon rfl), hsteps, ⟨hsteps, List.suffix_refl _, id⟩, trivial⟩

theorem keeps_guestFile {func lang : ContainerId} {data : FuncData}
    (hk : (h.container func).kind.Becomes (.func data)) (hn : data.native = none) :
    Obeys (logLaw a outer) h (guestFile func data lang) fun _ _ => True := by
  unfold guestFile
  split
  · exact .pure trivial
  · refine .of_standing fun s hs hh => ?_
    have hsourced : h.Sourced := hh ▸ hs.session.sourced
    refine (obeys_bodyOf (.inr (hsourced.body_of_becomes hk hn))).bind_same fun b hb => ?_
    refine .bind_heap ?_
    refine (obeys_ofHeap fun _ => Guest.ordinary_ofLang).bind_same fun markers _ => ?_
    rw [← bind_assoc]
    refine (keeps_fence func ((hsourced func).placed b hb) markers).bind_kept fun contents => ?_
    refine (keeps_claimFileName _ _).bind_kept fun name => ?_
    refine (keeps_writeGuestFile name contents).bind_kept fun path => ?_
    refine .bind_heap ?_
    have hkept : (h.container func).kind.Becomes (.func { data with guestPath := some path }) :=
      hk.trans (.func rfl rfl rfl rfl)
    exact (keeps_keepFile hkept).bind fun _ _ _ _ => .pure trivial

/-! ## Conversations -/

/-- What comes after a guest job can rely on a daemon. -/
theorem keeps_runJob {R : Heap → β → Prop} {spec : Guest.LaunchSpec} {job : Guest.Job}
    {f : Guest.Job → Eval β}
    (hf : ∀ j, ObeysIf (logLaw a outer)
      (fun s => s.session.heap = h ∧ s.session.daemon.isSome) (f j) R) :
    Obeys (logLaw a outer) h (runJob spec job >>= f) R := by
  rintro s hs rfl
  rw [bind_apply, Eval.bind, runJob_apply]
  cases hjob : s.session.runJob spec job with
  | none => trivial
  | some r =>
    obtain ⟨result, s'⟩ := r
    obtain ⟨hsound, hheap⟩ := sound_runJob hs.sound hjob
    obtain ⟨hunlocated, hdaemon, hd⟩ := hs.session.unlocated.runJob hjob
    have hlog := Session.log_runJob hjob
    have hstands := hs.setSession hsound.session (hheap ▸ .refl) (hheap ▸ .refl _) hlog hunlocated
    have honward : s.session.Onward s' := ⟨hheap ▸ .refl, hlog ▸ List.suffix_refl _, fun _ => hdaemon⟩
    cases result with
    | ok j => exact (hf j _ hstands ⟨hheap, hdaemon⟩).after honward.steps honward
    | error e =>
      have he := hd e rfl
      refine ⟨hstands.toInside, honward.steps, honward, .raised hstands.calm he.origin ?_, fun _ => hdaemon⟩
      intro l hl
      rw [he.pending] at hl
      cases hl

/-- What obeys the law does so when there is a daemon. -/
theorem Obeys.withDaemon {P : Heap → α → Prop} {x : Eval α} (hx : Obeys (logLaw a outer) h x P) :
    ObeysIf (logLaw a outer) (fun s => s.session.heap = h ∧ s.session.daemon.isSome) x P :=
  fun s hs hpre => hx s hs hpre.1

theorem keeps_critical {P : Heap → α → Prop} (message : String) :
    ObeysIf (logLaw a outer) (fun s => s.session.heap = h ∧ s.session.daemon.isSome)
      (raise (.critical message)) P :=
  fun _ hs hpre => ⟨hs.toInside, .refl, .refl _, .raised hs.calm rfl nofun, fun _ => hpre.2⟩

theorem keeps_converseStep (hd : d.Keeping) {frame : ContainerId} (hf : h.Plain frame)
    (spec : Guest.LaunchSpec) (func : String) (job : Guest.Job) :
    Obeys (logLaw a outer) h (converseStep d frame spec func job)
      (Rounds (fun _ _ => True) fun h' v => v.Valid h') := by
  unfold converseStep
  refine keeps_runJob fun j => ?_
  split
  · exact ((obeys_ofJson _).bind fun _ _ _ hv => .pure hv).withDaemon
  · have hbody (path : String) (view : Source.View) (hv : view.Placed) :
        Obeys (logLaw a outer) h (d.body frame path view true) fun h' r => r.Valid h' :=
      keeps_body (x := ⟨frame, path, view⟩) hd hf hv true
    refine Obeys.withDaemon ((obeys_callback hbody _).bind fun h' v _ _ => ?_)
    refine .bind_heap ?_
    exact (obeys_ofOption _).bind_same fun _ _ => .pure trivial
  · exact keeps_critical _

theorem keeps_converse (hd : d.Keeping) {frame : ContainerId} (hf : h.Plain frame)
    (spec : Guest.LaunchSpec) (func : String) (job : Guest.Job) :
    Obeys (logLaw a outer) h (converse d frame spec func job) fun h' v => v.Valid h' := by
  refine obeys_repeatUpTo (I := fun _ _ => True) ?_ d.rounds trivial
  exact fun h' job hst _ => keeps_converseStep hd (hf.mono hst.grows) spec func job

theorem keeps_callGuest (hd : d.Keeping) {func : ContainerId} {data : FuncData}
    (hk : (h.container func).kind.Becomes (.func data)) (hn : data.native = none)
    {frame lang : ContainerId} (hf : h.Plain frame) :
    Obeys (logLaw a outer) h (callGuest d func data frame lang) fun h' v => v.Valid h' := by
  unfold callGuest
  refine (keeps_guestFile hk hn).bind fun h' path hst _ => .bind_heap ?_
  refine (obeys_ofHeap fun _ => ordinary_launchSpec).bind_same fun spec _ => ?_
  exact keeps_converse hd (hf.mono hst.grows) _ _ _

theorem obeys_of_keeping (hd : d.Keeping) (a : Activation) (outer : List Activation) :
    d.Obeys (logLaw a outer) where
  term := hd.term a outer
  body _ c path view fragment hc hv := keeps_body (x := ⟨c, path, view⟩) hd hc hv fragment
  ready _ _ hc hlazy hbody := keeps_ensureReady hd hc hlazy (hbody.resolve_left id)
  guest _ _ _ _ _ _ hst _ hk _ hn _ hf :=
    keeps_callGuest hd (becomes_func_of_steps (hk ▸ .same _) hst) hn hf

end Eval
end Ditlang
