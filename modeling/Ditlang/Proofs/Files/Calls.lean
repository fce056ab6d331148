import Ditlang.Proofs.Files.Law

/-!
# Ditlang.Proofs.Files.Calls

Guest functions and bodies under the law of guest files, and with them the evaluator at every depth
(`deeper_following`). The file of a guest function is the one step that matters (`follows_takeFile`): a
name is claimed, and the text that was made from the body of the function is written under it, or cannot
be written. A guest job writes drivers at most (`follows_runJob`).
-/

namespace Ditlang

open Source (Location View)

/-- The evaluator one level deeper obeys the law of guest files, whatever body is run. -/
structure Deeper.Following (d : Deeper) : Prop where
  term : ∀ h, Eval.Obeys courseLaw h d.term fun h' v => v.Valid h'
  body : ∀ h c path view fragment, c.index < h.containers.size →
    Eval.Obeys courseLaw h (d.body c path view fragment) fun h' r => r.Valid h'

namespace Eval

variable {h : Heap} {d : Deeper}

/-! ## Classes and Langs -/

theorem follows_setInterpreted {c : ContainerId} {b : Body} (hb : (h.container c).body = some b) :
    Obeys courseLaw h (setHeap (h.modifyContainer c fun x =>
      { x with body := some { b with interpreted := true } })) fun g _ =>
        g = h.modifyContainer c fun x => { x with body := some { b with interpreted := true } } :=
  .of_works (runs_setHeap (.single (.describe c fun _ => rfl))) fun s hh =>
    ⟨.of_same (by rw [hh]; exact Heap.unfiled_interpret hb) rfl rfl rfl rfl rfl, rfl⟩

theorem follows_interpret (hd : d.Following) (c : ContainerId) :
    Obeys courseLaw h (interpret d c) fun _ _ => True := by
  unfold interpret
  refine .bind_heap ?_
  split
  · exact .pure trivial
  · rename_i b hw
    refine (follows_setInterpreted (body_of_waitingBody? hw).1).bind ?_
    rintro _ _ - rfl
    have hc := lt_size_of_waitingBody? hw
    rw [← Heap.size_modifyContainer h c] at hc
    have hbody := obeys_traced (hd.body _ c b.path b.view false hc)
      fun _ e => ⟨b.path, b.defLoc, bodyTag h c, rfl⟩
    refine Obeys.bind hbody fun _ r _ _ => ?_
    split
    · exact obeys_uncaught _
    · exact .pure trivial

theorem follows_ensureReady (hd : d.Following) (c : ContainerId) :
    Obeys courseLaw h (ensureReady d c) fun _ _ => True :=
  (follows_interpret hd c).bind fun _ _ _ _ => (follows_note _).mono fun _ _ _ _ => trivial

/-! ## Guest functions -/

theorem follows_guestSource (b : Body) (markers : Guest.Markers) :
    Obeys courseLaw h (guestSource b markers) fun h' text =>
      h' = h ∧ Guest.preprocess b.view markers = .ok text := by
  unfold guestSource
  cases Guest.preprocess b.view markers with
  | ok text => exact .pure ⟨rfl, rfl⟩
  | error e => exact .of_works (runs_fail _) fun _ _ => ⟨.refl _, rfl⟩

/-- A function gets its file: a name is claimed for it, and its text is written under this name. -/
theorem follows_takeFile {func lang : ContainerId} {data : FuncData} {markers : Guest.Markers}
    {text : String} (hr : h.Renders func lang markers text)
    (hk : (h.container func).kind = .func data) (hnone : data.guestPath = none) :
    Obeys courseLaw h (do
      let name ← claimFileName (Guest.fileName (h.nameOf lang) · markers.extension)
        (Guest.stemOf (h.nameOf func) func)
      let path ← writeGuestFile name text
      setHeap ((← heap).modifyContainer func fun c =>
        { c with kind := .func { data with guestPath := some path } })
      pure path) fun _ _ => True := by
  have hkept : ∀ path, (h.container func).kind.Becomes (.func { data with guestPath := some path }) :=
    fun path => hk ▸ .func rfl rfl rfl rfl
  have hruns : Runs h (do
      let name ← claimFileName (Guest.fileName (h.nameOf lang) · markers.extension)
        (Guest.stemOf (h.nameOf func) func)
      let path ← writeGuestFile name text
      setHeap ((← heap).modifyContainer func fun c =>
        { c with kind := .func { data with guestPath := some path } })
      pure path) fun _ _ => True := by
    refine (runs_claimFileName _ _).bind_kept fun name => ?_
    refine (runs_writeGuestFile name text).bind_kept fun path => .bind_heap ?_
    exact (runs_setHeap (.single (.keepFile (hkept path)))).bind fun _ _ _ _ => .pure trivial
  rintro s hs rfl
  have hleads := hruns s hs.sound rfl
  have hstep := Session.FileStep.file hr hk hnone
  have hnamed := Session.named_filed hs.named hk
    (s.session.guestName func lang markers.extension) (s.session.host.writeInto s.session.tmpDir
      (s.session.guestName func lang markers.extension) text)
  simp only [bind_apply, Eval.bind, claimFileName, writeGuestFile, session, heap, gets, modifySession,
    setHeap, Session.guestName, pure, Eval.pure] at hleads hstep hnamed ⊢
  revert hleads hstep hnamed
  generalize s.session.host.writeInto _ _ _ = r
  obtain ⟨result, host⟩ := r
  cases result with
  | ok path =>
    exact fun hleads hstep hnamed =>
      ⟨⟨hleads.1, hs.worded, hnamed⟩, hleads.2.1, .single hstep, trivial⟩
  | error e =>
    exact fun hleads hstep hnamed => ⟨⟨hleads.1, hs.worded, hnamed⟩, hleads.2.1, .single hstep, trivial⟩

theorem follows_guestFile {func lang : ContainerId} {data : FuncData}
    (hk : (h.container func).kind = .func data) (hlang : data.lang = .guest lang)
    (hkind : h.IsKind .lang lang) : Obeys courseLaw h (guestFile func data lang) fun _ _ => True := by
  unfold guestFile
  split
  · exact .pure trivial
  · rename_i hnone
    refine (obeys_bodyOf (.inl trivial)).bind_same fun b hb => ?_
    refine .bind_heap ?_
    refine (obeys_ofHeap fun _ => Guest.ordinary_ofLang).bind_same fun markers hmarkers => ?_
    refine (follows_note _).bind_kept fun _ => ?_
    refine (follows_guestSource b markers).bind_same fun text htext => ?_
    exact follows_takeFile ⟨⟨data, hk, hlang⟩, hkind, hmarkers, b, hb, htext⟩ hk hnone

theorem follows_runJob (spec : Guest.LaunchSpec) (job : Guest.Job) :
    Obeys courseLaw h (runJob spec job) fun h' _ => h' = h := by
  rintro s hs rfl
  rw [runJob_apply]
  cases hjob : s.session.runJob spec job with
  | none => trivial
  | some r =>
    obtain ⟨result, s'⟩ := r
    obtain ⟨hsound, hheap⟩ := sound_runJob hs.sound hjob
    have hclear : EvalState.Clear { s with session := s' } :=
      ⟨hsound, hs.worded, hheap ▸ hs.named⟩
    have hcourse := Session.course_runJob hjob
    cases result with
    | ok j => exact ⟨hclear, hheap ▸ .refl, hcourse, hheap⟩
    | error e => exact ⟨hclear, hheap ▸ .refl, hcourse, trivial⟩

theorem follows_converseStep (hd : d.Following) {frame : ContainerId}
    (hf : frame.index < h.containers.size) (spec : Guest.LaunchSpec) (func : String)
    (job : Guest.Job) : Obeys courseLaw h (converseStep d frame spec func job)
      (Rounds (fun _ _ => True) fun h' v => v.Valid h') := by
  unfold converseStep
  refine (follows_runJob spec job).bind_kept fun j => ?_
  split
  · exact (obeys_ofJson _).bind fun _ _ _ hv => .pure hv
  · refine (obeys_callback (fun _ _ _ => hd.body _ _ _ _ _ hf) _).bind fun h' v _ _ => .bind_heap ?_
    exact (obeys_ofOption _).bind_same fun _ _ => .pure trivial
  · exact obeys_raise ⟨rfl, nofun, .inl trivial⟩

/-- A conversation goes from one job to the next, in the same frame. -/
theorem follows_converse (hd : d.Following) {frame : ContainerId}
    (hf : frame.index < h.containers.size) (spec : Guest.LaunchSpec) (func : String)
    (job : Guest.Job) :
    Obeys courseLaw h (converse d frame spec func job) fun h' v => v.Valid h' := by
  refine obeys_repeatUpTo (I := fun _ _ => True) ?_ d.rounds trivial
  exact fun h' job hst _ =>
    follows_converseStep hd (Nat.lt_of_lt_of_le hf hst.grows.containers) spec func job

theorem follows_callGuest (hd : d.Following) {func lang frame : ContainerId} {data : FuncData}
    (hk : (h.container func).kind = .func data) (hlang : data.lang = .guest lang)
    (hkind : h.IsKind .lang lang) (hf : frame.index < h.containers.size) :
    Obeys courseLaw h (callGuest d func data frame lang) fun h' v => v.Valid h' := by
  unfold callGuest
  refine (follows_guestFile hk hlang hkind).bind fun h' path hst _ => .bind_heap ?_
  refine (obeys_ofHeap fun _ => ordinary_launchSpec).bind_same fun spec _ => ?_
  exact follows_converse hd (Nat.lt_of_lt_of_le hf hst.grows.containers) _ _ _

/-- A guest function keeps its declaration until it is called. -/
theorem obeys_of_following (hd : d.Following) : d.Obeys courseLaw where
  term := hd.term
  body h c path view fragment hc _ := hd.body h c path view fragment hc.there
  ready _ c _ _ _ := follows_ensureReady hd c
  guest _ _ func data lang _ hst hedits hk hdata _ hlang hf :=
    follows_callGuest hd (hedits.unfiled.kind func data hk) hlang
      ((hdata.lang lang hlang).mono hst.grows) hf.there

/-! ## Bodies -/

/-- There is no word in what is ahead before the first token is scanned. -/
theorem clear_enter {s : EvalState} (hs : s.Clear) {body : ContainerId}
    (hb : body.index < s.session.heap.containers.size) (path : String) (view : View)
    (fragment : Bool) : (s.enter body path view fragment).Clear :=
  ⟨⟨hs.sound.session.note _, Reading.valid_start hb path view fragment⟩, nofun, hs.named⟩

/-- What a body does, it does between two events of the log. -/
theorem follows_runBody (hd : d.Following) {body : ContainerId}
    (hb : body.index < h.containers.size) (path : String) (view : View) (fragment : Bool) :
    Obeys courseLaw h (runBody d body path view fragment) fun h' r => r.Valid h' := by
  rintro s hs rfl
  have hl := obeys_statements (obeys_of_following hd) _ (clear_enter hs hb path view fragment) rfl
  have hnote : ∀ (t : Session) (e : BodyEvent), t.Course (t.note e) := fun t e =>
    .single (.work (.of_same (.refl _) rfl rfl rfl rfl rfl))
  have hleave : ∀ (t : EvalState) (e : BodyEvent), t.Clear → s.session.heap.Steps t.session.heap →
      EvalState.Clear ⟨t.session.note e, s.reading⟩ := fun t e ht hst =>
    ⟨⟨ht.sound.session.note _, hs.sound.reading.mono hst.grows⟩, hs.worded, ht.named⟩
  unfold runBody
  revert hl
  cases statements d (s.enter body path view fragment) with
  | done signal t =>
    rintro ⟨ht, hst, hcourse, hsignal⟩
    exact ⟨hleave t _ ht hst, hst, ((hnote s.session _).trans hcourse).trans (hnote t.session _),
      hsignal, ht.sound.reading.lastValue⟩
  | failed e t =>
    rintro ⟨ht, hst, hcourse, -⟩
    exact ⟨hleave t _ ht hst, hst, ((hnote s.session _).trans hcourse).trans (hnote t.session _),
      trivial⟩
  | outOfFuel => exact fun _ => trivial

/-- What the evaluator does at any depth is a part of the course of guest files. -/
theorem deeper_following (rounds fuel : Nat) :
    Deeper.Following ⟨rounds, termAt fuel, bodyAt fuel⟩ := by
  induction fuel generalizing rounds with
  | zero => exact ⟨fun _ _ _ _ => trivial, fun _ _ _ _ _ _ _ _ _ => trivial⟩
  | succ fuel ih =>
    refine ⟨fun h s hs hh => ?_, fun h c path view fragment hc s hs hh => ?_⟩
    · exact obeys_term (obeys_of_following (ih fuel)) s hs hh
    · exact follows_runBody (ih fuel) hc path view fragment s hs hh

end Eval
end Ditlang
