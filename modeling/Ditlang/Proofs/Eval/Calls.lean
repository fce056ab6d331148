import Ditlang.Eval.Calls
import Ditlang.Proofs.Eval.Operand

/-!
# Ditlang.Proofs.Eval.Calls

Calling functions obeys the laws. The rules of the evaluator take the evaluator one level deeper as an
argument, so their lemmas take what it obeys: `Deeper.Obeys`. It also says what only a law itself can
know, how classes and Langs are interpreted and how guest functions are called.

A function that is called is a function, has a body if it is not a built-in one, and gets as many
arguments as it has parameters, so that no fault of the interpreter itself comes up. A guest worker has
no access to the store; what comes back from it is a JSON document, whose value is made by steps
(`steps_ofJson`).
-/

namespace Ditlang

open Source (View Location)

def Signal.Valid (h : Heap) : Signal → Prop
  | .normal => True
  | .returned v | .thrown v => v.Valid h

structure BodyResult.Valid (h : Heap) (r : BodyResult) : Prop where
  signal : r.signal.Valid h
  lastValue : ∀ v, r.lastValue = some v → v.Valid h

/-- The evaluator one level deeper obeys a law and yields valid values; and so do a class or a Lang that
is made ready, and a guest function that is called since the store was `h₀`. -/
structure Deeper.Obeys (L : Law) (d : Deeper) : Prop where
  term : ∀ h, Eval.Obeys L h d.term fun h' v => v.Valid h'
  body : ∀ h c path view fragment, h.Plain c → L.view view →
    Eval.Obeys L h (d.body c path view fragment) fun h' r => r.Valid h'
  ready : ∀ h c, c.index < h.containers.size → (h.container c).kind.isLazy →
    L.lenient ∨ (h.container c).body.isSome → Eval.Obeys L h (Eval.ensureReady d c) fun _ _ => True
  guest : ∀ h₀ h func data lang frame, h₀.Steps h → L.Edits h₀ h →
    (h₀.container func).kind = .func data → data.Valid h₀ → data.native = none →
    data.lang = .guest lang → h.Plain frame →
    Eval.Obeys L h (Eval.callGuest d func data frame lang) fun h' v => v.Valid h'

/-! ## Values that come as JSON -/

namespace Heap

mutual

/-- The value of a JSON document is made by steps, and is valid. -/
theorem steps_ofJson (h : Heap) : ∀ j : Json,
    h.Steps (h.ofJson j).2 ∧ (h.ofJson j).1.Valid (h.ofJson j).2
  | .null | .bool _ | .int _ | .real _ | .str _ => by
    unfold ofJson
    exact ⟨.refl, trivial⟩
  | .arr items => by
    obtain ⟨hs, hv⟩ := steps_ofJsonItems h items
    unfold ofJson
    refine ⟨hs.tail (.newList hv), ?_⟩
    simp [Value.Valid, newList]
  | .obj fields => by
    obtain ⟨hs, hv⟩ := steps_ofJsonFields h fields
    unfold ofJson
    refine ⟨hs.tail (.newMap (.ofList hv)), ?_⟩
    simp [Value.Valid, newMap]

theorem steps_ofJsonItems (h : Heap) : ∀ items : List Json,
    h.Steps (h.ofJsonItems items).2 ∧
      ∀ v ∈ (h.ofJsonItems items).1, v.Valid (h.ofJsonItems items).2
  | [] => by
    unfold ofJsonItems
    exact ⟨.refl, fun _ hv => nomatch hv⟩
  | item :: rest => by
    obtain ⟨hs, hv⟩ := steps_ofJson h item
    obtain ⟨hs', hvs⟩ := steps_ofJsonItems (h.ofJson item).2 rest
    unfold ofJsonItems
    refine ⟨hs.trans hs', ?_⟩
    intro w hw
    rcases List.mem_cons.1 hw with rfl | hw
    · exact hv.mono hs'.grows
    · exact hvs w hw

theorem steps_ofJsonFields (h : Heap) : ∀ fields : List (String × Json),
    h.Steps (h.ofJsonFields fields).2 ∧
      ∀ e ∈ (h.ofJsonFields fields).1, e.2.Valid (h.ofJsonFields fields).2
  | [] => by
    unfold ofJsonFields
    exact ⟨.refl, fun _ hv => nomatch hv⟩
  | (key, field) :: rest => by
    obtain ⟨hs, hv⟩ := steps_ofJson h field
    obtain ⟨hs', hvs⟩ := steps_ofJsonFields (h.ofJson field).2 rest
    unfold ofJsonFields
    refine ⟨hs.trans hs', ?_⟩
    intro e he
    rcases List.mem_cons.1 he with rfl | he
    · exact hv.mono hs'.grows
    · exact hvs e he

end

theorem valid_checkReturn {h : Heap} {v w : Value} (hv : v.Valid h) {ret : Option Declared}
    (hw : h.checkReturn v ret = .ok w) : w.Valid h := by
  unfold checkReturn at hw
  split at hw
  · split at hw
    · cases hw
      exact trivial
    · cases hw
  · split at hw
    · cases hw
    · cases hw
      exact hv

end Heap

/-- A value that is bent toward a type becomes a scalar, or stays what it is. -/
theorem Guest.valid_coerce {h : Heap} {v : Value} (hv : v.Valid h) (ret : Option Declared) :
    (Guest.coerce ret v).Valid h := by
  unfold Guest.coerce
  split
  · split
    · rename_i text
      cases Number.read? (Text.trim text) with
      | none => exact trivial
      | some x => exact trivial
    · exact trivial
    · exact trivial
    · split
      · exact trivial
      · split
        · exact trivial
        · exact trivial
    · exact hv
  · exact hv

/-- A source that cannot be read is reported as a file, without a place. -/
theorem Host.load_error {host : Host} {path : String} {e : Diagnostic}
    (he : (host.load path).1 = .error e) :
    e.origin = none ∧ e.pending = none ∧ e.kind ≠ .critical := by
  have hfile : ∀ fault, (fileError path fault).origin = none ∧ (fileError path fault).pending = none ∧
      (fileError path fault).kind ≠ .critical := by
    intro fault
    unfold fileError
    split <;> exact ⟨rfl, rfl, nofun⟩
  simp only [Host.load, FileTree.load] at he
  split at he
  · cases hanswer : host.web host.asked path with
    | ok text =>
      rw [hanswer] at he
      cases he
    | error reason =>
      rw [hanswer] at he
      cases he
      exact ⟨rfl, rfl, nofun⟩
  · split at he
    · cases he
      exact hfile _
    · cases he
      exact ⟨rfl, rfl, nofun⟩
    · cases he
      exact ⟨rfl, rfl, nofun⟩
    · rename_i tree _ _
      cases hread : host.files.read path with
      | ok text =>
        rw [hread] at he
        cases he
      | error fault =>
        rw [hread] at he
        cases he
        exact hfile _

theorem Host.raisable_load {L : Law.Clauses} {host : Host} {path : String} {e : Diagnostic}
    (he : (host.load path).1 = .error e) : L.Raisable e := by
  obtain ⟨horigin, hpending, hkind⟩ := host.load_error he
  exact ⟨horigin, by rw [hpending]; exact nofun, .inr hkind⟩

theorem CallFault.raisable {L : Law.Clauses} (f : CallFault) : L.Raisable f.diagnostic := by
  cases f with
  | missing | tooMany => exact Diagnostic.raisable_malformed _
  | argument | result => exact Diagnostic.raisable_typeMismatch _

/-- A call that fits gives as many arguments as there are parameters. -/
theorem Heap.length_of_checkArguments {h : Heap} {func : String} {params : List Param}
    {args : List Value} (hok : h.checkArguments func params args = .ok ()) :
    args.length = params.length := by
  unfold checkArguments at hok
  split at hok
  · cases hok
  · split at hok
    · cases hok
    · omega

/-- A function that is not built in has a body. -/
theorem Heap.Sourced.body_of_becomes {h : Heap} (hs : h.Sourced) {func : ContainerId}
    {data : FuncData} (hk : (h.container func).kind.Becomes (.func data))
    (hn : data.native = none) : (h.container func).body.isSome := by
  have hfunc := (hs func).func
  generalize (h.container func).kind = k at hk hfunc
  cases hk with
  | same =>
    have := hfunc data rfl
    rw [hn] at this
    exact this
  | func _ _ _ hnative =>
    have := hfunc _ rfl
    rw [← hnative, hn] at this
    exact this

namespace Eval

variable {L : Law} {h : Heap} {d : Deeper}

/-! ## Functions -/

theorem func_of_becomes {k : ContainerKind} {data : FuncData} (hk : k.Becomes (.func data)) :
    ∃ data₀, k = .func data₀ ∧ data₀.lang = data.lang := by
  cases hk with
  | same => exact ⟨data, rfl, rfl⟩
  | func _ _ hlang => exact ⟨_, rfl, hlang.symm⟩

theorem lt_size_of_becomes {func : ContainerId} {data : FuncData}
    (hk : (h.container func).kind.Becomes (.func data)) : func.index < h.containers.size := by
  obtain ⟨data₀, hk₀, -⟩ := func_of_becomes hk
  have hfunc : h.IsKind .func func := by rw [Heap.IsKind, hk₀]; rfl
  exact hfunc.lt_size

/-- A function keeps its parameters, its result and its Lang, so that it can be what it was. -/
theorem becomes_func_back {k : ContainerKind} {data : FuncData}
    (hk : (ContainerKind.func data).Becomes k) : k.Becomes (.func data) := by
  cases hk with
  | same => exact .same _
  | func hp hr hl hn => exact .func hp.symm hr.symm hl.symm hn.symm

theorem becomes_func_of_steps {func : ContainerId} {data : FuncData} {h' : Heap}
    (hk : (h.container func).kind.Becomes (.func data)) (hs : h.Steps h') :
    (h'.container func).kind.Becomes (.func data) := by
  obtain ⟨data₀, hk₀, -⟩ := func_of_becomes hk
  have hgrown := (hs.grows.container func (lt_size_of_becomes hk)).kind
  rw [hk₀] at hk hgrown
  exact (becomes_func_back hgrown).trans hk

/-! ## Bodies -/

theorem obeys_uncaught {α : Type} {P : Heap → α → Prop} (v : Value) : Obeys L h (uncaught v) P := by
  unfold uncaught
  exact (obeys_render v).bind_kept fun _ => obeys_raise ⟨rfl, nofun, .inr nofun⟩

theorem obeys_bodyOf {c : ContainerId} (hbody : L.lenient ∨ (h.container c).body.isSome) :
    Obeys L h (bodyOf c) fun h' b => h' = h ∧ (h.container c).body = some b := by
  unfold bodyOf
  refine .bind_heap ?_
  split
  · rename_i b hb
    exact .pure ⟨rfl, hb⟩
  · rename_i hb
    refine obeys_raise ⟨rfl, nofun, hbody.imp_right fun hsome => ?_⟩
    rw [hb] at hsome
    cases hsome

theorem lt_size_of_waitingBody? {c : ContainerId} {b : Body} (hb : waitingBody? h c = some b) :
    c.index < h.containers.size := by
  by_contra hlt
  rw [waitingBody?, Heap.container_of_size_le (Nat.not_lt.1 hlt)] at hb
  cases hb

theorem body_of_waitingBody? {c : ContainerId} {b : Body} (hw : waitingBody? h c = some b) :
    (h.container c).body = some b ∧ b.interpreted = false := by
  unfold waitingBody? at hw
  split at hw
  · rename_i hb
    split at hw
    · cases hw
    · rename_i hi
      cases hw
      exact ⟨hb, Bool.eq_false_iff.2 hi⟩
  · cases hw

/-- Interpreting the body of a class when it is needed. -/
theorem obeys_classReady (hd : d.Obeys L) {c : ContainerId} (hc : h.IsKind .cls c) :
    Obeys L h (ensureReady d c) fun _ _ => True :=
  .of_sourced fun hs => hd.ready h c hc.lt_size (.inl hc) (hs.imp_right fun hs => (hs c).cls hc)

/-! ## Built-in functions -/

theorem obeys_builtin {b : Builtin} {args : List Value} (hargs : ∀ v ∈ args, v.Valid h)
    (hlength : L.lenient ∨ args.length = (Prelude.signature b).1.length) :
    Obeys L h (builtin b args) fun h' v => v.Valid h' := by
  unfold builtin
  split
  · refine (obeys_render _).bind_kept fun line => ?_
    refine (obeys_setHost (f := fun s => s.host.printLine line) fun _ => rfl).bind_kept fun _ => ?_
    exact .pure trivial
  · exact (obeys_render _).bind_kept fun _ => .pure trivial
  · rename_i l v
    refine .bind_heap ?_
    refine (obeys_ofHeap fun _ => Heap.ordinary_append).bind_same fun h' hok => ?_
    refine .of_reachable fun hr => ?_
    have hsteps := Heap.steps_append hr.closed (hargs v (by simp)) hok
    have hedits : L.Edits h (h'.warmAppend l v) := .trans (Heap.edits_append hok) (Heap.edits_warmAll _)
    exact (obeys_setHeap hsteps hedits).bind fun _ _ _ _ => .pure trivial
  · exact obeys_raise (Diagnostic.raisable_typeMismatch _)
  · rename_i hpair
    refine obeys_raise ⟨rfl, nofun, hlength.imp_right fun hlength => ?_⟩
    obtain ⟨x, y, rfl⟩ := List.length_eq_two.1 hlength
    exact absurd rfl (hpair x y)
  · split
    · exact .pure trivial
    · exact .bind_heap (.pure trivial)
    · exact .bind_heap (.pure trivial)
    · exact .bind_heap (obeys_raise (Diagnostic.raisable_typeMismatch _))
    · exact .pure trivial

/-! ## What a guest asks for -/

theorem obeys_callback {frame : ContainerId} (hbody : ∀ path view, L.view view →
    Obeys L h (d.body frame path view true) fun h' r => r.Valid h') (code : String) :
    Obeys L h (callback d frame code) fun h' v => v.Valid h' := by
  unfold callback
  refine .bind_heap ?_
  refine (hbody _ _ (L.ofText code)).bind fun h' r _ hr => ?_
  have hsignal := hr.signal
  split
  · rename_i v hv
    rw [hv] at hsignal
    exact .pure hsignal
  · exact obeys_uncaught _
  · refine .pure ?_
    cases hl : r.lastValue with
    | none => exact trivial
    | some v => exact hr.lastValue v hl

theorem obeys_ofJson (j : Json) :
    Obeys L h (withHeap (·.ofJson j)) fun h' v => v.Valid h' := by
  obtain ⟨hsteps, hvalid⟩ := Heap.steps_ofJson h j
  refine (obeys_withHeap hsteps (.single (.other (Heap.containers_ofJson h j)))).mono ?_
  rintro _ _ - ⟨rfl, rfl⟩
  exact hvalid

/-! ## Calls -/

/-- Making a frame and giving the arguments. -/
theorem obeys_newFrame {func : ContainerId} (hfunc : h.IsKind .func func) {params : List Param}
    (hparams : ∀ p ∈ params, p.declared.Valid h) {args : List Value}
    (hargs : ∀ v ∈ args, v.Valid h) :
    Obeys L h (newFrame func params args) fun h' frame => L.Edits h h' ∧ h'.Plain frame := by
  unfold newFrame
  refine .of_reachable fun hr => .of_viewed fun hviewed => .bind_heap ?_
  have hstep : h.Step (h.alloc ⟨some (h.container func).displayName, .frame func, .empty, .empty,
      (h.container func).scope, (h.container func).body⟩).2 :=
    .alloc ⟨rfl, rfl, fun _ hk => nomatch hk⟩ hfunc fun _ ho => hr.closed.lt_size_of_scope ho
  have hlazy : ¬ (ContainerKind.frame func).isLazy := by
    simp [ContainerKind.isLazy, ContainerKind.valueKind?]
  have hmade : L.Edits h (h.alloc ⟨some (h.container func).displayName, .frame func, .empty, .empty,
      (h.container func).scope, (h.container func).body⟩).2 :=
    .single (.alloc (.of_plain (hviewed func) hlazy
      (by simp [ContainerKind.Naming, ContainerKind.valueKind?])))
  refine (obeys_withHeap (.single hstep) hmade).bind ?_
  rintro h₁ frame hh₁ ⟨rfl, rfl⟩
  refine (obeys_forIn (I := L.Edits h) _ ?_ hmade _).bind fun h₂ _ hh₂ he =>
    .pure ⟨he, (Heap.plain_alloc hlazy).mono hh₂.grows⟩
  rintro h₂ ⟨param, arg⟩ - hh₂ hmem he
  obtain ⟨hp, ha⟩ := List.of_mem_zip hmem
  have g := (hh₁.trans hh₂).grows
  dsimp only
  refine .bind_heap ?_
  refine (obeys_ofHeap fun _ => Heap.ordinary_declare).bind_same ?_
  rintro ⟨s, h₃⟩ hok
  have hdecl : h₂.Step h₃ := .declare ((hparams param hp).mono g) hok
  refine (obeys_setHeap (.single hdecl) (.single (.declare hok))).bind ?_
  rintro _ _ - rfl
  have hassign := obeys_assignSlot (L := L) (Heap.hasSlot_declare hok)
    ((hargs arg ha).mono (g.trans hdecl.grows))
  exact hassign.bind fun _ _ _ he' => .pure ⟨(he.tail (.declare hok)).trans he', _, rfl⟩

theorem obeys_callDitlang (hd : d.Obeys L) {func frame : ContainerId}
    (hbody : L.lenient ∨ (h.container func).body.isSome) (hf : h.Plain frame) :
    Obeys L h (callDitlang d func frame) fun h' v => v.Valid h' := by
  unfold callDitlang
  refine .of_viewed fun hviewed => (obeys_bodyOf hbody).bind_same fun b hb => ?_
  refine (hd.body h frame _ _ _ hf (hviewed func b hb)).bind fun h' r _ hr => ?_
  have hsignal := hr.signal
  split
  · exact .pure trivial
  · rename_i v hv
    rw [hv] at hsignal
    exact .pure hsignal
  · exact obeys_uncaught _

theorem obeys_checkedResult {v : Value} (hv : v.Valid h) (ret : Option Declared) :
    Obeys L h (checkedResult ret v) fun h' w => w.Valid h' := by
  unfold checkedResult
  refine .of_reachable fun hr => .bind_heap ?_
  have hwarm := (Heap.asks_checkAsks hr.closed v (ret.getD (.scalar .thing))).steps
  refine (obeys_setHeap hwarm (Heap.edits_warmAll _)).bind ?_
  rintro h' _ - rfl
  refine .bind_heap ((obeys_ofDiagnostic_mapError fun f _ => f.raisable).mono ?_)
  rintro _ w - ⟨rfl, hw⟩
  exact Heap.valid_checkReturn (hv.mono hwarm.grows) hw

theorem obeys_callFunction (hd : d.Obeys L) {func : ContainerId}
    (hfunc : L.lenient ∨ h.IsKind .func func) {args : List Value} (hargs : ∀ v ∈ args, v.Valid h) :
    Obeys L h (callFunction d func args) fun h' v => v.Valid h' := by
  unfold callFunction
  refine .of_reachable fun hr => .of_sourced fun hsourced => .bind_heap ?_
  split
  · rename_i data hk
    have hfunc : h.IsKind .func func := by rw [Heap.IsKind, hk]; rfl
    have hdata : data.Valid h := by
      have hv := (hr.closed.container func).kind
      rw [hk] at hv
      exact hv
    refine (obeys_ofDiagnostic_mapError fun f _ => f.raisable).bind_same fun _ hfits => ?_
    split
    · rename_i b hnative
      refine obeys_builtin hargs (hsourced.imp_right fun hsourced => ?_)
      have hparams := (hsourced func).func data hk
      rw [hnative] at hparams
      rw [← hparams]
      exact Heap.length_of_checkArguments hfits
    · rename_i hnative
      refine (obeys_newFrame hfunc hdata.params hargs).bind ?_
      rintro h₁ frame hh₁ ⟨hedits, hframe⟩
      dsimp only
      split
      · refine .of_sourced fun hsourced₁ => ?_
        have hgrown := (hh₁.grows.container func hfunc.lt_size).kind
        have hback : (h₁.container func).kind.Becomes (.func data) :=
          becomes_func_back (hk ▸ hgrown)
        have hbody := hsourced₁.imp_right fun hs => hs.body_of_becomes hback hnative
        exact (obeys_callDitlang hd hbody hframe).bind fun _ _ _ hv => obeys_checkedResult hv _
      · rename_i lang hlang
        refine (hd.guest h h₁ func data lang frame hh₁ hedits hk hdata hnative hlang hframe).bind
          fun _ v _ hv => ?_
        exact obeys_checkedResult (Guest.valid_coerce hv _) _
  · rename_i hk
    refine obeys_raise ⟨rfl, ?_, hfunc.imp_right fun hfunc => ?_⟩
    · rintro _ ⟨⟩
    · obtain ⟨data, hdata⟩ := hfunc.exists_func
      exact absurd hdata (hk data)

/-! ## Imports -/

theorem obeys_loadSource (path : String) : Obeys L h (loadSource path) fun h' _ => h' = h := by
  rintro s hs rfl
  have hfiles : (s.session.host.load path).2.files = s.session.host.files := rfl
  obtain ⟨ht, hcourse⟩ := L.setHost hs hfiles
  have hsource : Obeys L s.session.heap (ofDiagnostic (s.session.host.load path).1)
      fun h' _ => h' = s.session.heap :=
    (obeys_ofDiagnostic fun _ he => Host.raisable_load he).mono fun _ _ _ hh => hh.1
  exact (hsource _ ht rfl).after .refl hcourse

theorem obeys_importDit (hd : d.Obeys L) (target importer : String) :
    Obeys L h (importDit d target importer) fun h' dit => h'.IsKind .dit dit := by
  unfold importDit
  refine obeys_session.bind_same ?_
  rintro s ⟨hs, rfl⟩
  refine (obeys_loadSource _).bind_kept fun source => ?_
  have hstep : ∀ name body, s.heap.Step (s.heap.alloc ⟨name, .dit, .empty, .empty,
      some s.prelude, body⟩).2 := by
    intro name body
    refine .alloc ⟨rfl, rfl, fun _ hk => nomatch hk⟩ trivial ?_
    rintro _ ⟨⟩
    exact hs.prelude
  have hlazy : ¬ ContainerKind.dit.isLazy := by simp [ContainerKind.isLazy, ContainerKind.valueKind?]
  have hmade : ∀ name path, Container.Made L.view L.word ⟨name, .dit, .empty, .empty, some s.prelude,
      some ⟨path, .ofText source, .start, true⟩⟩ := by
    refine fun name path => .of_plain ?_ hlazy (by simp [ContainerKind.Naming, ContainerKind.valueKind?])
    rintro _ ⟨⟩
    exact L.ofText source
  refine (obeys_withHeap (.single (hstep _ _)) (.single (.alloc (hmade _ _)))).bind ?_
  rintro h₁ dit - ⟨rfl, rfl⟩
  refine (hd.body _ _ _ _ _ (Heap.plain_alloc hlazy) (L.ofText source)).bind fun h₂ r hh₂ _ => ?_
  split
  · exact obeys_uncaught _
  · exact .pure ((Heap.isKind_alloc rfl).mono hh₂.grows)

end Eval
end Ditlang
