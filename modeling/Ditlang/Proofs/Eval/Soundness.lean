import Ditlang.Proofs.Eval.Runs

/-!
# Ditlang.Proofs.Eval.Soundness

The evaluator is sound at every depth. The rules obey every law as long as the evaluator one level deeper
does; what is left for soundness is how a class or a Lang is interpreted, and how a guest function is
called: its file, and the conversation with its worker, which has the form of a transcript
(`ends_converse`). `deeper_sound` closes the circle by induction on the depth.
-/

namespace Ditlang

open Source (View Location)

/-- The evaluator one level deeper runs soundly and yields valid values. -/
structure Deeper.Sound (d : Deeper) : Prop where
  term : ∀ h, Eval.Runs h d.term fun h' v => v.Valid h'
  body : ∀ h c path view fragment, c.index < h.containers.size →
    Eval.Runs h (d.body c path view fragment) fun h' r => r.Valid h'

theorem Session.ensureDaemon_sound {s : Session} (hs : s.Sound) :
    s.ensureDaemon.2.Sound ∧ s.ensureDaemon.2.heap = s.heap := by
  unfold Session.ensureDaemon
  split
  · exact ⟨hs, rfl⟩
  · exact ⟨⟨hs.heap, hs.prelude, hs.main⟩, rfl⟩

/-- A guest job leaves the store of its session alone. -/
theorem Session.runJob_sound {s s' : Session} (hs : s.Sound) {spec : Guest.LaunchSpec}
    {job : Guest.Job} {result : Except Diagnostic Guest.Job}
    (hr : s.runJob spec job = some (result, s')) : s'.Sound ∧ s'.heap = s.heap := by
  obtain ⟨hd, hheap⟩ := Session.ensureDaemon_sound hs
  obtain ⟨x, -, hx⟩ := Option.map_eq_some_iff.1 hr
  cases hx
  exact ⟨⟨hd.heap, hd.prelude, hd.main⟩, hheap⟩

namespace Eval

variable {h : Heap} {d : Deeper}

/-! ## Classes and Langs -/

theorem runs_interpret (hd : d.Sound) (c : ContainerId) :
    Runs h (interpret d c) fun _ _ => True := by
  unfold interpret
  refine .bind_heap ?_
  split
  · exact .pure trivial
  · rename_i b hb
    refine (runs_setHeap (.single (.describe c fun _ => rfl))).bind ?_
    rintro _ _ - rfl
    have hc := lt_size_of_waitingBody? hb
    rw [← Heap.size_modifyContainer h c] at hc
    have hbody := obeys_traced (hd.body _ c b.path b.view false hc).obeys
      fun _ e => ⟨b.path, b.defLoc, bodyTag h c, rfl⟩
    refine Runs.bind hbody.runs fun _ r _ _ => ?_
    split
    · exact (obeys_uncaught _).runs
    · exact .pure trivial

theorem runs_ensureReady (hd : d.Sound) (c : ContainerId) :
    Runs h (ensureReady d c) fun _ _ => True :=
  (runs_interpret hd c).bind fun _ _ _ _ => (runs_note _).mono fun _ _ _ _ => trivial

/-! ## Guest functions -/

theorem runs_guestSource (b : Body) (markers : Guest.Markers) :
    Runs h (guestSource b markers) fun h' _ => h' = h := by
  unfold guestSource
  cases Guest.preprocess b.view markers with
  | ok text => exact .pure rfl
  | error e => exact runs_fail _

theorem runs_claimFileName (fileOf : String → String) (base : String) :
    Runs h (claimFileName fileOf base) fun h' _ => h' = h := by
  unfold claimFileName
  refine obeys_session.runs.bind_same fun s _ => ?_
  refine (runs_modifySession ?_).bind_kept fun _ => .pure rfl
  exact fun s hs => ⟨⟨hs.heap, hs.prelude, hs.main⟩, rfl, rfl⟩

theorem runs_writeGuestFile (name contents : String) :
    Runs h (writeGuestFile name contents) fun h' _ => h' = h := by
  unfold writeGuestFile
  refine obeys_session.runs.bind_same fun s _ => ?_
  refine (runs_modifySession ?_).bind_kept fun _ => ?_
  · exact fun s hs => ⟨⟨hs.heap, hs.prelude, hs.main⟩, rfl, rfl⟩
  · split
    · exact .pure rfl
    · exact runs_fail _

/-- The file of a guest function is the one that it has already, or a new one. -/
theorem runs_guestFile {func : ContainerId} {data : FuncData}
    (hk : (h.container func).kind.Becomes (.func data))
    (hfile : ∀ path, data.guestPath = some path → h.HasFile func path) (lang : ContainerId) :
    Runs h (guestFile func data lang) fun h' path => h'.HasFile func path := by
  unfold guestFile
  split
  · rename_i path hpath
    exact .pure (hfile path hpath)
  · refine (obeys_bodyOf (.inl trivial)).runs.bind_same fun b _ => ?_
    refine .bind_heap ?_
    refine (obeys_ofHeap fun _ => Guest.ordinary_ofLang).runs.bind_same fun markers _ => ?_
    refine (runs_note _).bind_kept fun _ => ?_
    refine (runs_guestSource b markers).bind_kept fun contents => ?_
    refine (runs_claimFileName _ _).bind_kept fun name => ?_
    refine (runs_writeGuestFile name contents).bind_kept fun path => ?_
    refine .bind_heap ?_
    have hkept : (h.container func).kind.Becomes (.func { data with guestPath := some path }) :=
      hk.trans (.func rfl rfl rfl rfl)
    refine (runs_setHeap (.single (.keepFile hkept))).bind ?_
    rintro _ _ - rfl
    refine .pure ⟨_, .refl, { data with guestPath := some path }, ?_, rfl⟩
    rw [Heap.container_modifyContainer, if_pos ⟨rfl, lt_size_of_becomes hk⟩]

/-- A guest job has a result, and ends as that says. -/
theorem runJob_apply (spec : Guest.LaunchSpec) (job : Guest.Job) (s : EvalState) :
    runJob spec job s = match s.session.runJob spec job with
      | none => .outOfFuel
      | some (.ok j, s') => .done j { s with session := s' }
      | some (.error d, s') => .failed (.diagnostic d) { s with session := s' } := by
  unfold runJob
  simp only [bind_apply, Eval.bind, session, gets]
  cases s.session.runJob spec job with
  | none => rfl
  | some r =>
    obtain ⟨result, s'⟩ := r
    cases result with
    | ok j => rfl
    | error d => rfl

/-! ## Conversations -/

theorem sound_runJob {s : EvalState} (hs : s.Sound) {spec : Guest.LaunchSpec} {job : Guest.Job}
    {result : Except Diagnostic Guest.Job} {s' : Session}
    (hr : s.session.runJob spec job = some (result, s')) :
    EvalState.Sound { s with session := s' } ∧ s'.heap = s.session.heap := by
  obtain ⟨hs', hheap⟩ := Session.runJob_sound hs.session hr
  refine ⟨⟨hs', ?_⟩, hheap⟩
  show s.reading.Valid s'.heap
  rw [hheap]
  exact hs.reading

/-- How one job of a guest function may end: the call goes on with the next job, or it is over. -/
def Goes (c : Call) (job : Guest.Job) (s : Session) : Outcome (Guest.Job ⊕ Value) → Prop
  | .done (.inl next) t => t.Sound ∧ s.heap.Steps t.session.heap ∧
      ∀ ok s', t.session.Converses c next ok s' → s.Converses c job ok s'
  | .done (.inr v) t => t.Sound ∧ s.heap.Steps t.session.heap ∧
      s.Converses c job true t.session ∧ v.Valid t.session.heap
  | .failed _ t => t.Sound ∧ s.heap.Steps t.session.heap ∧ s.Converses c job false t.session
  | .outOfFuel => True

theorem goes_converseStep (hd : d.Sound) {frame : ContainerId} (c : Call) (func : String)
    (job : Guest.Job) (s : EvalState) (hs : s.Sound)
    (hf : frame.index < s.session.heap.containers.size) :
    Goes c job s.session (converseStep d frame c.spec func job s) := by
  rw [converseStep, bind_apply, Eval.bind, runJob_apply]
  cases hjob : s.session.runJob c.spec job with
  | none => trivial
  | some r =>
    obtain ⟨result, s'⟩ := r
    obtain ⟨hs', hheap⟩ := sound_runJob hs hjob
    have hsteps : s.session.heap.Steps s'.heap := hheap ▸ .refl
    cases result with
    | error e => exact ⟨hs', hsteps, Session.converses_of_error hjob⟩
    | ok j =>
      cases hk : j.kind with
      | finishFunc =>
        have hvalue := Heap.steps_ofJson s'.heap j.result
        simp only [hk]
        exact ⟨hs'.setHeap hvalue.1, hsteps.trans hvalue.1,
          Session.converses_of_finished hjob hk rfl hvalue.1, hvalue.2⟩
      | exeDitlang =>
        have hf' : frame.index < s'.heap.containers.size := hheap ▸ hf
        have hl := (obeys_callback (fun path view _ => (hd.body _ frame path view true hf').obeys)
          j.resultText).runs { s with session := s' } hs' rfl
        simp only [hk, bind_apply, Eval.bind]
        revert hl
        cases callback d frame j.resultText { s with session := s' } with
        | outOfFuel => exact fun _ => trivial
        | failed e t =>
          rintro ⟨ht, hst, hleads⟩
          exact ⟨ht, hsteps.trans hst, Session.converses_of_unanswered hjob hk hleads⟩
        | done v t =>
          rintro ⟨ht, hst, hleads, -⟩
          simp only [heap, gets]
          cases t.session.heap.toJson? v with
          | none => trivial
          | some doc =>
            exact ⟨ht, hsteps.trans hst, fun _ _ => Session.converses_of_answered hjob hk hleads hst⟩
      | callFunc | ditlangCallback | crash | heart =>
        simp only [hk]
        exact ⟨hs', hsteps, Session.converses_of_other hjob (by simp [hk]) (by simp [hk])⟩

/-- A conversation goes on from one job to the next until the call ends. -/
theorem ends_converse (hd : d.Sound) {frame : ContainerId} (c : Call) (func : String) (n : Nat)
    (job : Guest.Job) (s : EvalState) (hs : s.Sound)
    (hf : frame.index < s.session.heap.containers.size) :
    (repeatUpTo n (converseStep d frame c.spec func) job s).Ends (Session.Converses c job) s.session
      fun h' v => v.Valid h' := by
  induction n generalizing job s with
  | zero => trivial
  | succ n ih =>
    have hgoes := goes_converseStep hd c func job s hs hf
    rw [repeatUpTo]
    revert hgoes
    cases converseStep d frame c.spec func job s with
    | outOfFuel => exact id
    | failed e t => exact id
    | done r t =>
      cases r with
      | inr v => exact id
      | inl next =>
        rintro ⟨ht, hst, hconverses⟩
        have hnext := ih next t ht (Nat.lt_of_lt_of_le hf hst.grows.containers)
        dsimp only
        revert hnext
        cases repeatUpTo n (converseStep d frame c.spec func) next t with
        | outOfFuel => exact id
        | failed e u => exact fun hu => ⟨hu.1, hst.trans hu.2.1, hconverses _ _ hu.2.2⟩
        | done w u =>
          exact fun hu => ⟨hu.1, hst.trans hu.2.1, hconverses _ _ hu.2.2.1, hu.2.2.2⟩

theorem runs_converse (hd : d.Sound) {frame : ContainerId} (hf : frame.index < h.containers.size)
    {c : Call} (func : String) {job : Guest.Job} (hjob : job.kind = .callFunc) (hown : c.Own h job) :
    Runs h (converse d frame c.spec func job) fun h' v => v.Valid h' := by
  intro s hs hh
  subst hh
  have hends := ends_converse hd c func d.rounds job s hs hf
  rw [converse]
  revert hends
  cases repeatUpTo d.rounds (converseStep d frame c.spec func) job s with
  | done v t => exact fun hends => ⟨hends.1, hends.2.1, hends.2.2.1.leads hjob hown, hends.2.2.2⟩
  | failed e t => exact fun hends => ⟨hends.1, hends.2.1, hends.2.2.leads hjob hown⟩
  | outOfFuel => exact id

theorem ordinary_launchSpec {lang : ContainerId} {f : HeapFault}
    (he : launchSpec h lang = .error f) : f.Ordinary := by
  unfold launchSpec at he
  simp only [Bind.bind, Except.bind, Pure.pure, Except.pure] at he
  split at he
  · rename_i hprop
    cases he
    exact Heap.ordinary_langProp hprop
  · split at he
    · rename_i hprop
      cases he
      exact Heap.ordinary_langProp hprop
    · split at he
      · rename_i hprop
        cases he
        exact Heap.ordinary_langProp hprop
      · cases he

theorem lang_of_launchSpec {lang : ContainerId} {spec : Guest.LaunchSpec}
    (hspec : launchSpec h lang = .ok spec) : spec.lang = h.nameOf lang := by
  unfold launchSpec at hspec
  simp only [bind, Except.bind, pure, Except.pure] at hspec
  split at hspec
  · cases hspec
  · split at hspec
    · cases hspec
    · split at hspec
      · cases hspec
      · cases hspec
        rfl

/-- What a call asks to be launched is what the Lang of its function says. -/
theorem own_call {func lang : ContainerId} {data : FuncData}
    (hk : (h.container func).kind.Becomes (.func data)) (hlang : data.lang = .guest lang)
    (hr : h.Reachable) {spec : Guest.LaunchSpec} (hspec : launchSpec h lang = .ok spec)
    {path : String} (hfile : h.HasFile func path) :
    Call.Own h ⟨func, lang, spec⟩ (.call (h.nameOf lang) (h.nameOf func) path) where
  func := by
    obtain ⟨data₀, hk₀, hlang₀⟩ := func_of_becomes hk
    exact ⟨data₀, hk₀, hlang₀.trans hlang⟩
  file := hfile
  called := ⟨h, hr, .refl, hspec, rfl⟩
  lang := (lang_of_launchSpec hspec).symm

theorem runs_callGuest (hd : d.Sound) {func : ContainerId} {data : FuncData}
    (hk : (h.container func).kind.Becomes (.func data))
    (hfile : ∀ path, data.guestPath = some path → h.HasFile func path) {frame lang : ContainerId}
    (hf : frame.index < h.containers.size) (hlang : data.lang = .guest lang) :
    Runs h (callGuest d func data frame lang) fun h' v => v.Valid h' := by
  unfold callGuest
  refine (runs_guestFile hk hfile lang).bind fun h' path hh' hpath => ?_
  refine .of_reachable fun hr => .bind_heap ?_
  refine (obeys_ofHeap fun _ => ordinary_launchSpec).runs.bind_same fun spec hspec => ?_
  have hown := own_call (becomes_func_of_steps hk hh') hlang hr hspec hpath
  have hf' := Nat.lt_of_lt_of_le hf hh'.grows.containers
  exact runs_converse (c := ⟨func, lang, spec⟩) hd hf' (h'.nameOf func) rfl hown

/-! ## Every depth -/

/-- What is sound one level deeper obeys the law of soundness. -/
theorem obeys_of_sound (hd : d.Sound) : d.Obeys soundLaw where
  term h := (hd.term h).obeys
  body h c path view fragment hc _ := (hd.body h c path view fragment hc.there).obeys
  ready h c _ _ _ := (runs_ensureReady hd c).obeys
  guest h₀ h func data lang frame hst _ hk _ _ hlang hf := by
    have hfile : ∀ path, data.guestPath = some path → h.HasFile func path :=
      fun _ hpath => ⟨h₀, hst, data, hk, hpath⟩
    exact (runs_callGuest hd (becomes_func_of_steps (hk ▸ .same _) hst) hfile hf.there hlang).obeys

/-- A body runs with a reading of its own, and the reading around it is still valid afterwards. -/
theorem runs_runBody (hd : d.Sound) {body : ContainerId} (hb : body.index < h.containers.size)
    (path : String) (view : View) (fragment : Bool) :
    Runs h (runBody d body path view fragment) fun h' r => r.Valid h' := by
  intro s hs hh
  subst hh
  have hstart : (s.enter body path view fragment).Sound :=
    ⟨hs.session.note _, Reading.valid_start hb path view fragment⟩
  have hl := (obeys_statements (obeys_of_sound hd)).runs _ hstart rfl
  unfold runBody
  revert hl
  cases statements d (s.enter body path view fragment) with
  | done signal t =>
    rintro ⟨ht, hst, hleads, hsignal⟩
    exact ⟨⟨ht.session.note _, hs.reading.mono hst.grows⟩, hst,
      (Session.leads_note _ _).trans (hleads.note _), hsignal, ht.reading.lastValue⟩
  | failed e t =>
    rintro ⟨ht, hst, hleads⟩
    exact ⟨⟨ht.session.note _, hs.reading.mono hst.grows⟩, hst,
      (Session.leads_note _ _).trans (hleads.note _)⟩
  | outOfFuel => exact id

theorem deeper_sound (rounds fuel : Nat) : Deeper.Sound ⟨rounds, termAt fuel, bodyAt fuel⟩ := by
  induction fuel generalizing rounds with
  | zero => exact ⟨fun _ _ _ _ => trivial, fun _ _ _ _ _ _ _ _ _ => trivial⟩
  | succ fuel ih =>
    refine ⟨fun h s hs hh => ?_, fun h c path view fragment hc s hs hh => ?_⟩
    · exact (obeys_term (obeys_of_sound (ih fuel))).runs s hs hh
    · exact runs_runBody (ih fuel) hc path view fragment s hs hh

end Eval
end Ditlang
