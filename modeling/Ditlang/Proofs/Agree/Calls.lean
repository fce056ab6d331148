import Ditlang.Proofs.Agree.Reading
import Ditlang.Proofs.Eval.Soundness

/-!
# Ditlang.Proofs.Agree.Calls

Calling functions does the same in two runs side by side. A guest function is handed the text of
its body and what its Lang says, and neither has source coordinates (`preprocess_unplaced`,
`Alike.langProp?`); so guest workers are told the same and answer the same.
-/

namespace Ditlang

open Source (Location View)

/-- The evaluator one level deeper does the same in two runs side by side. -/
structure Deeper.Agrees (d : Deeper) : Prop where
  term : ∀ p h, Eval.Agrees p h d.term d.term fun h' v => v.Valid h'
  body : ∀ p h c path (v w : View) fragment, c.index < h.containers.size → v.unplaced = w.unplaced →
    Eval.Agrees p h (d.body c path v fragment) (d.body c path w fragment) fun h' r => r.Valid h'

/-! ## Results that are the same under a function -/

theorem cases_of_map_eq {α γ : Type} {φ : α → γ} {x y : Option α} (he : x.map φ = y.map φ) :
    (x = none ∧ y = none) ∨ ∃ a b, x = some a ∧ y = some b ∧ φ a = φ b := by
  cases x with
  | none => exact .inl ⟨rfl, Option.map_eq_none_iff.1 he.symm⟩
  | some a =>
    obtain ⟨b, hb, hab⟩ := Option.map_eq_some_iff.1 he.symm
    exact .inr ⟨a, b, rfl, hb, hab.symm⟩

theorem cases_of_mapError_eq {α ε γ : Type} {φ : ε → γ} {x y : Except ε α}
    (he : x.mapError φ = y.mapError φ) :
    (∃ a, x = .ok a ∧ y = .ok a) ∨ ∃ e e', x = .error e ∧ y = .error e' ∧ φ e = φ e' := by
  cases x with
  | ok a =>
    cases y with
    | ok b => exact .inl ⟨a, rfl, congrArg Except.ok (Except.ok.inj he).symm⟩
    | error e => cases he
  | error e =>
    cases y with
    | ok b => cases he
    | error e' => exact .inr ⟨e, e', rfl, rfl, Except.error.inj he⟩

/-! ## Guest bodies -/

namespace Guest

def Piece.unplaced : Piece → Piece
  | .byte b => .byte b
  | .fence f _ => .fence f .start

theorem pieces_unplaced (loc loc' : Location) (bs : List UInt8) :
    (pieces loc bs).map Piece.unplaced = (pieces loc' bs).map Piece.unplaced := by
  fun_induction pieces loc bs generalizing loc' with
  | case1 => rfl
  | case2 => rfl
  | case3 loc a b rest f hf ih => simp [pieces, hf, Piece.unplaced, ih ((loc'.after a).after b)]
  | case4 loc a b rest hf ih =>
    rw [pieces, hf]
    simp [Piece.unplaced, ih (loc'.after a)]

theorem substitute_unplaced (m : Markers) (ps : List Piece) :
    substitute m (ps.map Piece.unplaced) = substitute m ps := by
  rw [substitute, substitute, List.flatMap_map]
  congr 1
  funext x
  cases x <;> rfl

theorem stepFence_unplaced (stack : List Location) (f : Fence) (loc : Location) :
    stepFence (stack.map fun _ => .start) f .start =
      (stepFence stack f loc).map (List.map fun _ => .start) := by
  cases stack with
  | nil =>
    cases f <;> simp [stepFence]
  | cons opener outer =>
    cases f <;> simp only [stepFence, List.map_cons, List.length_cons, List.length_map] <;>
      split <;> rfl

theorem checkFences_unplaced (stack : List Location) (ps : List Piece) :
    checkFences (stack.map fun _ => .start) (ps.map Piece.unplaced) =
      (checkFences stack ps).mapError fun e => (e.1, .start) := by
  fun_induction checkFences stack ps with
  | case1 => rfl
  | case2 opener outer closer => simp [checkFences, Except.mapError, closer]
  | case3 stack b rest ih => simpa [checkFences, Piece.unplaced] using ih
  | case4 stack f loc rest stack' hstep ih =>
    rw [List.map_cons, Piece.unplaced, checkFences, stepFence_unplaced stack f loc, hstep]
    exact ih
  | case5 stack f loc rest hstep =>
    rw [List.map_cons, Piece.unplaced, checkFences, stepFence_unplaced stack f loc, hstep]
    simp [Except.mapError]

/-- The file of a guest function is made of the text of its body, wherever that stands. -/
theorem preprocess_unplaced {v w : View} (hvw : v.bytes = w.bytes) (m : Markers) :
    (preprocess v m).mapError Diagnostic.unplaced =
      (preprocess w m).mapError Diagnostic.unplaced := by
  have hpieces := pieces_unplaced v.startLoc w.startLoc w.bytes
  have htext := congrArg (substitute m) hpieces
  rw [substitute_unplaced, substitute_unplaced] at htext
  have hcheck := congrArg (checkFences []) hpieces
  have hfences (ps : List Piece) := checkFences_unplaced [] ps
  rw [List.map_nil] at hfences
  rw [hfences, hfences] at hcheck
  rw [preprocess, preprocess, hvw, htext]
  obtain ⟨_, hv, hw⟩ | ⟨⟨fault, loc⟩, ⟨fault', loc'⟩, hv, hw, he⟩ := cases_of_mapError_eq hcheck
  · rw [hv, hw]
  · rw [hv, hw]
    cases he
    rfl

end Guest

/-! ## What a Lang says -/

namespace Heap.Alike

variable {m : ContainerId} {h k : Heap} (he : h.Alike m k)

include he

theorem langProp (hc : h.Closed) (lang : ContainerId) (prop : String) :
    h.langProp lang prop = k.langProp lang prop := by
  rw [Heap.langProp, Heap.langProp, he.langProp? hc,
    he.eq (f := (·.nameOf lang)) fun h => h.nameOf_unplaced m lang]

theorem markersOfLang (hc : h.Closed) (lang : ContainerId) :
    Guest.Markers.ofLang h lang = Guest.Markers.ofLang k lang := by
  simp only [Guest.Markers.ofLang, he.langProp hc, he.langProp? hc]

theorem launchSpec (hc : h.Closed) (lang : ContainerId) :
    Eval.launchSpec h lang = Eval.launchSpec k lang := by
  simp only [Eval.launchSpec, he.langProp hc,
    he.eq (f := (·.nameOf lang)) fun h => h.nameOf_unplaced m lang]

end Heap.Alike

/-! ## Checks of calls -/

namespace Heap

variable (h : Heap) (m : ContainerId)

theorem checkArguments_unplaced (func : String) (params : List Param) (args : List Value) :
    (h.unplaced m).checkArguments func params args = h.checkArguments func params args := by
  simp [checkArguments]

theorem warmReturn_unplaced (v : Value) (ret : Option Declared) :
    (h.unplaced m).warmReturn v ret = (h.warmReturn v ret).unplaced m := by
  rw [warmReturn, warmCheck, checkAsks_unplaced, warmAll_unplaced]
  rfl

theorem checkReturn_unplaced (v : Value) (ret : Option Declared) :
    (h.unplaced m).checkReturn v ret = h.checkReturn v ret := by
  cases ret <;> simp [checkReturn]

end Heap

namespace Session

theorem freeFileName_unplaced (s : Session) (fileOf : String → String) (base : String)
    (n suffix : Nat) :
    s.unplaced.freeFileName fileOf base n suffix = s.freeFileName fileOf base n suffix := by
  induction n generalizing suffix with
  | zero => rfl
  | succ n ih =>
    rw [freeFileName, freeFileName, ih]
    rfl

theorem runJob_unplaced (s : Session) (spec : Guest.LaunchSpec) (job : Guest.Job) :
    s.unplaced.runJob spec job = (s.runJob spec job).map (Prod.map id unplaced) := by
  unfold runJob ensureDaemon
  cases hd : s.daemon <;> simp [unplaced, hd, Function.comp_def]

end Session

namespace Eval

variable {p : Pairing} {h : Heap} {d : Deeper}

theorem agrees_uncaught {α : Type} [Likeness α] {P : Heap → α → Prop} (v : Value) :
    Agrees p h (uncaught v) (uncaught v) P := by
  unfold uncaught
  refine (agrees_render v).bind_kept ?_
  rintro text - rfl
  exact agrees_raise rfl

theorem agrees_interpret (hd : d.Agrees) {c : ContainerId} (hc : ¬ h.IsKind .dit c) :
    Agrees p h (interpret d c) (interpret d c) fun _ _ => True := by
  unfold interpret
  refine .bind_heap fun k hk => ?_
  have hwaiting := hk.waitingBody? hc
  have htag := hk.eq (f := (bodyTag · c)) fun h => h.bodyTag_unplaced p.main c
  obtain ⟨hb, hb'⟩ | ⟨b, b', hb, hb', hsame⟩ := cases_of_map_eq hwaiting
  · rw [hb, hb']
    exact .done trivial
  · rw [hb, hb']
    obtain ⟨hpath, hview, -⟩ := Body.unplaced_inj hsame
    dsimp only
    have hset : (some { b with interpreted := true }).map Body.unplaced =
        (some { b' with interpreted := true }).map Body.unplaced := by
      simp [Body.unplaced, hpath, hview]
    refine (agrees_setHeap (.single (.describe c fun _ => rfl)) (hk.setBody c hset)).bind ?_
    rintro _ _ _ - rfl -
    have hc := lt_size_of_waitingBody? hb
    rw [← Heap.size_modifyContainer h c] at hc
    rw [← hpath, ← htag]
    refine (agrees_mapFailure (hd.body p _ c b.path _ _ false hc hview) ?_).bind ?_
    · intro s t e e' he _
      rw [Failure.traced_unplaced, Failure.traced_unplaced, he]
    · rintro h' r _ - - rfl
      split
      · exact agrees_uncaught _
      · exact .done trivial

theorem agrees_ensureReady (hd : d.Agrees) {c : ContainerId} (hc : ¬ h.IsKind .dit c) :
    Agrees p h (ensureReady d c) (ensureReady d c) fun _ _ => True :=
  (agrees_interpret hd hc).bind fun _ _ _ _ _ _ =>
    (agrees_note _ _).mono fun _ _ _ _ => trivial

/-! ## Built-in functions -/

theorem agrees_builtin (b : Builtin) {args : List Value} (hargs : ∀ v ∈ args, v.Valid h) :
    Agrees p h (builtin b args) (builtin b args) fun h' v => v.Valid h' := by
  unfold builtin
  split
  · refine (agrees_render _).bind_kept ?_
    rintro line - rfl
    refine (agrees_modifySession ?_ ?_).bind_kept fun _ _ _ => .done trivial
    · exact fun s hs => ⟨⟨hs.heap, hs.prelude, hs.main⟩, rfl, rfl⟩
    · exact fun s => ⟨rfl, rfl, rfl⟩
  · refine (agrees_render _).bind_kept ?_
    rintro text - rfl
    exact .done trivial
  · rename_i l v
    refine .bind_heap fun k hk => ?_
    have hsame := hk.map (f := (·.append l v)) fun h => h.append_unplaced p.main l v
    refine .bind_ofHeap _ hsame fun h' k' hok (hk' : h'.Alike p.main k') => ?_
    refine .of_reachable fun hr => ?_
    have hsteps := Heap.steps_append hr.closed (hargs v (by simp)) hok
    have hkept := hk'.map (f := (·.warmAppend l v)) (g := (·.unplaced p.main))
      fun h => h.warmAppend_unplaced p.main l v
    exact (agrees_setHeap hsteps hkept).bind fun _ _ _ _ _ _ => .done trivial
  · exact agrees_raise rfl
  · exact agrees_raise rfl
  · split
    · exact .done trivial
    · rename_i l _
      refine .bind_heap fun k hk => ?_
      rw [← hk.eq (f := (·.list l)) fun _ => rfl]
      exact .done trivial
    · rename_i m _
      refine .bind_heap fun k hk => ?_
      rw [← hk.eq (f := (·.map m)) fun _ => rfl]
      exact .done trivial
    · rename_i other _ _ _ _
      refine .bind_heap fun k hk => ?_
      rw [← hk.eq (f := (·.valueLabel other)) fun h => h.valueLabel_unplaced p.main other]
      exact agrees_raise rfl
    · exact .done trivial

/-! ## Guest functions -/

theorem agrees_bodyOf {c : ContainerId} (hc : ¬ h.IsKind .dit c) :
    Agrees p h (bodyOf c) (bodyOf c) fun h' _ => h' = h := by
  unfold bodyOf
  refine .bind_heap fun k hk => ?_
  rw [← hk.eq (f := (·.nameOf c)) fun h => h.nameOf_unplaced p.main c]
  obtain ⟨hb, hb'⟩ | ⟨b, b', hb, hb', hsame⟩ := cases_of_map_eq (hk.body hc)
  · rw [hb, hb']
    exact agrees_raise rfl
  · rw [hb, hb']
    exact .pure rfl hsame

theorem agrees_guestSource {b b' : Body} (hb : b.unplaced = b'.unplaced) (markers : Guest.Markers) :
    Agrees p h (guestSource b markers) (guestSource b' markers) fun h' _ => h' = h := by
  obtain ⟨hpath, hview, -⟩ := Body.unplaced_inj hb
  have hsame := Guest.preprocess_unplaced (View.bytes_eq hview) markers
  unfold guestSource
  obtain ⟨text, hv, hw⟩ | ⟨e, e', hv, hw, he⟩ := cases_of_mapError_eq hsame
  · rw [hv, hw]
    exact .done rfl
  · rw [hv, hw]
    refine agrees_raise ?_
    rw [Diagnostic.annotate_unplaced, Diagnostic.annotate_unplaced, he, hpath]

theorem agrees_claimFileName (fileOf : String → String) (base : String) :
    Agrees p h (claimFileName fileOf base) (claimFileName fileOf base) fun h' _ => h' = h := by
  unfold claimFileName
  refine .bind_session fun s t _ _ hst => ?_
  rw [← hst.eq (f := fun s => s.freeFileName fileOf base (s.guestFiles.length + 1) 1)
    fun s => s.freeFileName_unplaced fileOf base _ 1]
  refine (agrees_modifySession ?_ ?_).bind_kept fun _ _ _ => .done rfl
  · exact fun s hs => ⟨⟨hs.heap, hs.prelude, hs.main⟩, rfl, rfl⟩
  · exact fun s => ⟨rfl, rfl, rfl⟩

theorem agrees_writeGuestFile (name contents : String) :
    Agrees p h (writeGuestFile name contents) (writeGuestFile name contents)
      fun h' _ => h' = h := by
  unfold writeGuestFile
  refine .bind_session fun s t _ _ hst => ?_
  rw [← hst.eq (f := fun s => s.host.writeInto s.tmpDir name contents) fun _ => rfl]
  refine (agrees_modifySession ?_ ?_).bind_kept fun _ _ _ => ?_
  · exact fun s hs => ⟨⟨hs.heap, hs.prelude, hs.main⟩, rfl, rfl⟩
  · exact fun s => ⟨rfl, rfl, rfl⟩
  · split
    · exact .done rfl
    · exact agrees_fail rfl

theorem not_dit_of_becomes {func : ContainerId} {data : FuncData}
    (hk : (h.container func).kind.Becomes (.func data)) : ¬ h.IsKind .dit func := by
  rw [Heap.IsKind, ← hk.valueKind?_eq]
  simp [ContainerKind.valueKind?]

theorem agrees_guestFile {func : ContainerId} {data : FuncData}
    (hkind : (h.container func).kind.Becomes (.func data)) (lang : ContainerId) :
    Agrees p h (guestFile func data lang) (guestFile func data lang) fun _ _ => True := by
  unfold guestFile
  split
  · exact .done trivial
  · refine .of_reachable fun hr => ?_
    refine (agrees_bodyOf (not_dit_of_becomes hkind)).bind_kept fun b b' hb => ?_
    refine .bind_heap fun k hk => ?_
    rw [← hk.markersOfLang hr.closed lang,
      ← hk.eq (f := (·.nameOf)) fun h => funext (h.nameOf_unplaced p.main)]
    refine (agrees_ofHeap _).bind_same ?_
    rintro markers - - rfl
    refine (agrees_note _ _).bind_kept fun _ _ _ => ?_
    refine (agrees_guestSource hb markers).bind_kept ?_
    rintro contents - rfl
    refine (agrees_claimFileName _ _).bind_kept ?_
    rintro name - rfl
    refine (agrees_writeGuestFile name contents).bind_kept ?_
    rintro path - rfl
    refine .bind_heap fun k hk => ?_
    have hfile : (h.container func).kind.Becomes (.func { data with guestPath := some path }) :=
      hkind.trans (.func rfl rfl rfl rfl)
    have hfunc : (ContainerKind.func { data with guestPath := some path }).valueKind? ≠ some .dit :=
      by simp [ContainerKind.valueKind?]
    have hset := hk.setKind (not_dit_of_becomes hkind) hfunc
    exact (agrees_setHeap (.single (.keepFile hfile)) hset).bind fun _ _ _ _ _ _ => .done trivial

theorem lands_runJob (spec : Guest.LaunchSpec) (job : Guest.Job) :
    Lands h (runJob spec job) fun h' _ => h' = h := by
  intro s hs hh
  subst hh
  rw [runJob_apply]
  cases hjob : s.session.runJob spec job with
  | none => trivial
  | some r =>
    obtain ⟨result, s'⟩ := r
    obtain ⟨hs', hheap⟩ := sound_runJob hs hjob
    have hsteps : s.session.heap.Steps s'.heap := hheap ▸ .refl
    cases result with
    | ok j => exact ⟨hs', hsteps, trivial, hheap⟩
    | error e => exact ⟨hs', hsteps, trivial⟩

theorem main_runJob {s s' : Session} {spec : Guest.LaunchSpec} {job : Guest.Job}
    {result : Except Diagnostic Guest.Job} (hjob : s.runJob spec job = some (result, s')) :
    s'.main = s.main ∧ s'.mainPath = s.mainPath := by
  have hmain : s.ensureDaemon.2.main = s.main ∧ s.ensureDaemon.2.mainPath = s.mainPath := by
    unfold Session.ensureDaemon
    split <;> exact ⟨rfl, rfl⟩
  obtain ⟨x, -, hx⟩ := Option.map_eq_some_iff.1 hjob
  cases hx
  exact hmain

theorem agrees_runJob (spec : Guest.LaunchSpec) (job : Guest.Job) :
    Agrees p h (runJob spec job) (runJob spec job) fun h' _ => h' = h := by
  refine ⟨lands_runJob spec job, fun s t _ _ hst => ?_, fun s _ _ hlost a t hdone => ?_⟩
  · have hsame : (s.session.runJob spec job).map (Prod.map id Session.unplaced) =
        (t.session.runJob spec job).map (Prod.map id Session.unplaced) := by
      rw [← Session.runJob_unplaced, hst.session, Session.runJob_unplaced]
    rw [runJob_apply, runJob_apply]
    obtain ⟨hs, ht⟩ | ⟨⟨result, s'⟩, ⟨result', t'⟩, hs, ht, he⟩ := cases_of_map_eq hsame
    · rw [hs, ht]
      exact fun _ => rfl
    · rw [hs, ht]
      obtain ⟨rfl, hs'⟩ := Prod.mk.inj he
      obtain ⟨hmain, hpath⟩ := main_runJob hs
      have hlinked := hst.setSession (u := s') (v := t') hs' hmain hpath
      cases result with
      | ok j => exact .inr ⟨j, _, rfl, rfl, hlinked⟩
      | error e => exact fun _ => ⟨_, _, rfl, rfl, hs', hlinked.main, hst.reading.path⟩
  · rw [runJob_apply] at hdone
    split at hdone
    · cases hdone
    · cases hdone
      exact hlost.setSession _
    · cases hdone

/-- A fragment that is run in the frame of a call, under some path. -/
theorem agrees_fragment (hd : d.Agrees) {frame : ContainerId} (hf : h.NoDit frame)
    (path code : String) :
    Agrees p h (do
      let result ← d.body frame path (.ofText code) true
      match result.signal with
      | .returned v => pure v
      | .thrown v => uncaught v
      | .normal => pure (result.lastValue.getD .null)) (do
      let result ← d.body frame path (.ofText code) true
      match result.signal with
      | .returned v => pure v
      | .thrown v => uncaught v
      | .normal => pure (result.lastValue.getD .null)) fun h' v => v.Valid h' := by
  refine (hd.body p h frame path _ _ true hf.lt_size rfl).bind ?_
  rintro h' r _ - hr rfl
  have hsignal := hr.signal
  split
  · rename_i v hv
    rw [hv] at hsignal
    exact .done hsignal
  · exact agrees_uncaught _
  · refine .done ?_
    cases hl : r.lastValue with
    | none => exact trivial
    | some v => exact hr.lastValue v hl

theorem agrees_callback (hd : d.Agrees) {frame : ContainerId} (hf : h.NoDit frame)
    (code : String) :
    Agrees p h (callback d frame code) (callback d frame code) fun h' v => v.Valid h' := by
  unfold callback
  refine .bind_heap fun k hk => ?_
  obtain ⟨hb, hb'⟩ | ⟨b, b', hb, hb', hsame⟩ := cases_of_map_eq (hk.body hf.kind)
  · rw [hb, hb']
    exact agrees_fragment hd hf _ code
  · obtain ⟨hpath, -⟩ := Body.unplaced_inj hsame
    rw [hb, hb']
    dsimp only
    rw [← hpath]
    exact agrees_fragment hd hf _ code

theorem agrees_converse (hd : d.Agrees) {frame : ContainerId} (hf : h.NoDit frame)
    (spec : Guest.LaunchSpec) (func : String) (job : Guest.Job) :
    Agrees p h (converse d frame spec func job) (converse d frame spec func job)
      fun h' v => v.Valid h' := by
  refine agrees_repeatUpTo (I := fun h' _ => h'.NoDit frame) ?_ (.inl rfl) hf
  intro h₁ job _ hf
  unfold converseStep
  refine (agrees_runJob spec job).bind_kept ?_
  rintro finished - rfl
  split
  · obtain ⟨hsteps, hv⟩ := Heap.steps_ofJson h₁ finished.result
    refine (agrees_withHeap hsteps fun h => h.ofJson_unplaced p.main _).bind ?_
    rintro _ v _ - ⟨rfl, rfl⟩ rfl
    exact .done hv
  · refine (agrees_callback hd hf _).bind ?_
    rintro h₂ v _ hh₂ - rfl
    refine .bind_heap fun k hk => ?_
    rw [← hk.eq (f := (·.toJson? v)) fun h => h.toJson?_unplaced p.main v]
    refine (agrees_ofOption _).bind_same ?_
    rintro doc - - rfl
    exact .done (hf.mono hh₂.grows)
  · exact agrees_raise rfl

theorem agrees_callGuest (hd : d.Agrees) {func : ContainerId} {data : FuncData}
    (hkind : (h.container func).kind.Becomes (.func data)) {frame : ContainerId}
    (hf : h.NoDit frame) (lang : ContainerId) :
    Agrees p h (callGuest d func data frame lang) (callGuest d func data frame lang)
      fun h' v => v.Valid h' := by
  unfold callGuest
  refine (agrees_guestFile hkind lang).bind ?_
  rintro h' path _ hh' - rfl
  refine .of_reachable fun hr => .bind_heap fun k hk => ?_
  rw [← hk.launchSpec hr.closed lang,
    ← hk.eq (f := (·.nameOf)) fun h => funext (h.nameOf_unplaced p.main)]
  refine (agrees_ofHeap _).bind_same ?_
  rintro spec - - rfl
  exact agrees_converse hd (hf.mono hh'.grows) spec _ _

/-! ## Calls -/

theorem agrees_newFrame {func : ContainerId} (hfunc : h.IsKind .func func) {params : List Param}
    (hparams : ∀ p ∈ params, p.declared.Valid h) {args : List Value}
    (hargs : ∀ v ∈ args, v.Valid h) :
    Agrees p h (newFrame func params args) (newFrame func params args)
      fun h' frame => h'.NoDit frame := by
  unfold newFrame
  refine .of_reachable fun hr => .bind_heap fun k hk => ?_
  have hstep : ∀ name body, h.Step (h.alloc ⟨name, .frame func, .empty, .empty,
      (h.container func).scope, body⟩).2 := fun _ _ =>
    .alloc ⟨rfl, rfl, fun _ hk => nomatch hk⟩ hfunc fun _ ho => hr.closed.lt_size_of_scope ho
  dsimp only
  rw [← hk.eq (f := fun h => (h.container func).displayName) fun h => by simp,
    ← hk.eq (f := fun h => (h.container func).scope) fun h => by simp]
  have hbodies := Container.unplaced_congr ⟨some (h.container func).displayName, .frame func,
    .empty, .empty, (h.container func).scope, none⟩ (hk.body (hfunc.not_isKind (by simp)))
  refine (agrees_alloc (hstep _ _) hbodies).bind ?_
  rintro h₁ frame _ hh₁ ⟨he, hf⟩ rfl
  have hframe : h₁.NoDit frame := by
    subst he hf
    exact Heap.noDit_alloc (by simp [ContainerKind.valueKind?])
  refine (agrees_forIn (I := fun _ => True) _ ?_ trivial _).bind fun h₂ _ _ hh₂ _ _ =>
    .done (hframe.mono hh₂.grows)
  rintro h₂ ⟨param, arg⟩ - hh₂ hmem -
  obtain ⟨hp, ha⟩ := List.of_mem_zip hmem
  have g := (hh₁.trans hh₂).grows
  dsimp only
  refine .bind_heap fun k₂ hk₂ => ?_
  have hsame := hk₂.map (f := (·.declare frame param.name param.declared))
    fun h => h.declare_unplaced p.main frame param.name param.declared
  refine .bind_ofHeap _ hsame ?_
  rintro ⟨s, h₃⟩ ⟨s', k₃⟩ hok he₃
  obtain ⟨rfl, hk₃⟩ := Prod.mk.inj he₃
  have hdecl : h₂.Step h₃ := .declare ((hparams param hp).mono g) hok
  refine (agrees_setHeap (.single hdecl) hk₃).bind ?_
  rintro _ _ _ - rfl -
  refine (agrees_assignSlot (Heap.hasSlot_declare hok) ?_).bind
    fun _ _ _ _ _ _ => .done ⟨trivial, _, rfl⟩
  exact (hargs arg ha).mono (g.trans hdecl.grows)

theorem agrees_callDitlang (hd : d.Agrees) {func : ContainerId}
    (hfunc : ¬ h.IsKind .dit func) {frame : ContainerId} (hf : frame.index < h.containers.size) :
    Agrees p h (callDitlang d func frame) (callDitlang d func frame) fun h' v => v.Valid h' := by
  unfold callDitlang
  refine (agrees_bodyOf hfunc).bind_kept fun b b' hb => ?_
  obtain ⟨hpath, hview, -⟩ := Body.unplaced_inj hb
  rw [← hpath]
  refine (hd.body p h frame _ _ _ false hf hview).bind ?_
  rintro h' r _ - hr rfl
  have hsignal := hr.signal
  split
  · exact .done trivial
  · rename_i v hv
    rw [hv] at hsignal
    exact .done hsignal
  · exact agrees_uncaught _

theorem agrees_checkedResult {v : Value} (hv : v.Valid h) (ret : Option Declared) :
    Agrees p h (checkedResult ret v) (checkedResult ret v) fun h' w => w.Valid h' := by
  unfold checkedResult
  refine .of_reachable fun hr => .bind_heap fun k hk => ?_
  have hwarm := (Heap.asks_checkAsks hr.closed v (ret.getD (.scalar .thing))).steps
  have hkept := hk.map (f := (·.warmReturn v ret)) (g := (·.unplaced p.main))
    fun h => h.warmReturn_unplaced p.main v ret
  refine (agrees_setHeap hwarm hkept).bind ?_
  rintro h' _ _ - rfl -
  refine .bind_heap fun k' hk' => ?_
  rw [← hk'.eq (f := (·.checkReturn v ret)) fun h => h.checkReturn_unplaced p.main v ret]
  refine (agrees_ofDiagnostic_mapError (fun _ => rfl) _).mono ?_
  rintro _ w - ⟨rfl, hw⟩
  exact Heap.valid_checkReturn (hv.mono hwarm.grows) hw

theorem agrees_callFunction (hd : d.Agrees) (func : ContainerId) {args : List Value}
    (hargs : ∀ v ∈ args, v.Valid h) :
    Agrees p h (callFunction d func args) (callFunction d func args) fun h' v => v.Valid h' := by
  unfold callFunction
  refine .of_reachable fun hr => .bind_heap fun k hk => ?_
  rw [← hk.kind func, ← hk.eq (f := (·.nameOf)) fun h => funext (h.nameOf_unplaced p.main)]
  split
  · rename_i data hkind
    have hfunc : h.IsKind .func func := by rw [Heap.IsKind, hkind]; rfl
    have hdata : data.Valid h := by
      have hv := (hr.closed.container func).kind
      rw [hkind] at hv
      exact hv
    rw [← hk.eq (f := (·.checkArguments (h.nameOf func) data.params args))
      fun g => g.checkArguments_unplaced p.main _ _ _]
    refine (agrees_ofDiagnostic_mapError (fun _ => rfl) _).bind_same fun _ _ _ _ => ?_
    split
    · exact agrees_builtin _ hargs
    · refine (agrees_newFrame hfunc hdata.params hargs).bind ?_
      rintro h₁ frame _ hh₁ hframe rfl
      have hkind₁ : (h₁.container func).kind.Becomes (.func data) :=
        becomes_func_back (hkind ▸ (hh₁.grows.container func hfunc.lt_size).kind)
      dsimp only
      split
      · refine (agrees_callDitlang hd (not_dit_of_becomes hkind₁) hframe.lt_size).bind ?_
        rintro h₂ v _ - hv rfl
        exact agrees_checkedResult hv _
      · refine (agrees_callGuest hd hkind₁ hframe _).bind ?_
        rintro h₂ v _ - hv rfl
        exact agrees_checkedResult (Guest.valid_coerce hv _) _
  · exact agrees_raise rfl

/-! ## Imports -/

theorem agrees_loadSource (path : String) :
    Agrees p h (loadSource path) (loadSource path) fun h' _ => h' = h := by
  unfold loadSource
  refine .bind_session fun s t _ _ hst => ?_
  rw [← hst.eq (f := fun s => s.host.load path) fun _ => rfl]
  refine (agrees_modifySession ?_ ?_).bind_kept fun _ _ _ => ?_
  · exact fun s hs => ⟨⟨hs.heap, hs.prelude, hs.main⟩, rfl, rfl⟩
  · exact fun s => ⟨rfl, rfl, rfl⟩
  · exact (agrees_ofDiagnostic _).mono fun _ _ _ hh => hh.1

theorem agrees_importDit (hd : d.Agrees) (target importer : String) :
    Agrees p h (importDit d target importer) (importDit d target importer)
      fun h' dit => h'.IsKind .dit dit := by
  unfold importDit
  refine .bind_session fun s t hs hh hst => ?_
  subst hh
  rw [← hst.eq (f := (·.prelude)) fun _ => rfl]
  refine (agrees_loadSource _).bind_kept ?_
  rintro source - rfl
  have hstep : ∀ name body, s.heap.Step (s.heap.alloc ⟨name, .dit, .empty, .empty,
      some s.prelude, body⟩).2 := by
    intro name body
    refine .alloc ⟨rfl, rfl, fun _ hk => nomatch hk⟩ trivial ?_
    rintro _ ⟨⟩
    exact hs.prelude
  refine (agrees_alloc (hstep _ _) fun _ => rfl).bind ?_
  rintro h₁ dit _ - ⟨rfl, rfl⟩ rfl
  refine (hd.body p _ _ _ _ _ false (by simp [Heap.alloc]) rfl).bind ?_
  rintro h₂ r _ hh₂ - rfl
  split
  · exact agrees_uncaught _
  · exact .done ((Heap.isKind_alloc rfl).mono hh₂.grows)

end Eval
end Ditlang
