import Ditlang.Proofs.Eval.Paths

/-!
# Ditlang.Proofs.Eval.Definitions

Taking types and definitions obeys the laws: the classes, functions and Langs they make are there, and so
is everything that their types name. A definition has the body that was captured for it, and the name
that a word gives it, or none.
-/

namespace Ditlang
namespace Eval

open Source (Location View)

variable {L : Law} {h : Heap} {d : Deeper}

/-! ## Types -/

theorem valid_ofPrimitive (p : Primitive) : (TypeSpec.ofPrimitive p).Valid h := by
  cases p <;> exact trivial

theorem obeys_parseType (hd : d.Obeys L) : Obeys L h (parseType d) fun h' ty => ty.Valid h' := by
  unfold parseType
  refine (obeys_nextIs _).bind_kept fun list => ?_
  refine .when (obeys_advance true) fun _ => ?_
  refine .bind_next fun t ht => ?_
  split
  · exact Obeys.at ((obeys_advance true).bind_kept fun _ => .pure (valid_ofPrimitive _))
  · rename_i k hk
    refine (obeys_operand hd ht hk).bind fun h' o _ ho => ?_
    refine (obeys_read ho.1).bind_same fun v hv => ?_
    split
    · exact .pure hv
    · exact obeys_malformedAt _ ht.loc
  · exact (obeys_undeclared ht.toMarks).at
  · exact (obeys_malformedAt _ ht.loc).at

theorem obeys_returnType (hd : d.Obeys L) :
    Obeys L h (returnType d) fun h' ret => ∀ ty, ret = some ty → ty.Valid h' := by
  unfold returnType
  refine (obeys_nextIs _).bind_kept fun b => ?_
  refine .ite (fun _ => ?_) fun _ => ?_
  · exact (obeys_advance true).bind_kept fun _ => .pure fun _ hty => nomatch hty
  · refine (obeys_parseType hd).bind fun h' ty _ hty => .pure ?_
    rintro _ ⟨⟩
    exact hty

theorem obeys_parameters (hd : d.Obeys L) :
    Obeys L h (parameters d) fun h' params => ∀ p ∈ params, p.declared.Valid h' := by
  unfold parameters
  refine (obeys_advance true).bind_kept fun _ => ?_
  refine obeys_repeatTokens (I := fun h' params => ∀ p ∈ params, p.declared.Valid h') ?_
    (fun _ hp => nomatch hp)
  intro h' params _ hparams
  refine (obeys_nextIsPunct _).bind_kept fun b => ?_
  refine .ite (fun _ => ?_) fun _ => ?_
  · exact (obeys_advance true).bind_kept fun _ => .pure hparams
  · refine (obeys_parseType hd).bind fun h'' ty hh'' hty => ?_
    refine obeys_next.bind_same fun t ht => ?_
    split
    · exact obeys_malformedAt _ ht.loc
    · rename_i name _
      refine .when (obeys_malformedAt _ ht.loc) fun _ => ?_
      refine (obeys_advance true).bind_kept fun _ => ?_
      refine obeys_separator _ _ fun _ => .pure ?_
      intro p hp
      rcases List.mem_append.1 hp with hp | hp
      · exact (hparams p hp).mono hh''.grows
      · exact List.mem_singleton.1 hp ▸ hty

/-! ## Classes -/

theorem obeys_parentClasses (hd : d.Obeys L) :
    Obeys L h (parentClasses d) fun h' parents => ∀ c ∈ parents, h'.IsKind .cls c := by
  unfold parentClasses
  refine (obeys_nextIs _).bind_kept fun b => ?_
  refine .ite (fun _ => ?_) fun _ => .pure fun _ hc => nomatch hc
  refine obeys_repeatTokens (I := fun h' parents => ∀ c ∈ parents, h'.IsKind .cls c) ?_
    (fun _ hc => nomatch hc)
  intro h' parents _ hparents
  refine (obeys_advance true).bind_kept fun _ => ?_
  refine .bind_next fun t ht => ?_
  split
  · rename_i k hk
    refine (obeys_operand hd ht hk).bind fun h'' o hh'' ho => ?_
    refine (obeys_read ho.1).bind_same fun v hv => ?_
    split
    · rename_i c
      have hall : ∀ x ∈ parents ++ [c], h''.IsKind .cls x := by
        intro x hx
        rcases List.mem_append.1 hx with hx | hx
        · exact (hparents x hx).mono hh''.grows
        · exact List.mem_singleton.1 hx ▸ hv
      refine (obeys_nextIsPunct _).bind_kept fun b => ?_
      exact .ite (fun _ => .pure hall) fun _ => .pure hall
    · exact obeys_malformedAt _ ht.loc
  · exact (obeys_undeclared ht.toMarks).at
  · exact (obeys_malformedAt _ ht.loc).at

theorem obeys_optionalWord :
    Obeys L h optionalWord fun h' name => h' = h ∧ ∀ word, name = some word → L.word word := by
  unfold optionalWord
  refine (obeys_nextIs _).bind_kept fun b => ?_
  refine .ite (fun _ => ?_) fun _ => .pure ⟨rfl, nofun⟩
  refine obeys_next.bind_same fun t ht => ?_
  refine (obeys_advance true).bind_kept fun _ => .pure ⟨rfl, ?_⟩
  rintro _ ⟨⟩
  exact ht.word

theorem obeys_extendClass (c parent : ContainerId) {loc : Location} (hloc : L.place loc) :
    Obeys L h (extendClass c parent loc) fun _ _ => True := by
  unfold extendClass
  refine .bind_heap ((obeys_ofHeapAt hloc fun _ => Heap.ordinary_addParent).bind_same fun h' hok => ?_)
  exact (obeys_setHeap (.single (.addParent hok)) (.single (.addParent hok))).mono
    fun _ _ _ _ => trivial

/-- A body that is captured, with what is made of it. -/
theorem obeys_capturedBody (what : String) (defLoc : Location) {β : Type} {f : Body → Eval β}
    {R : Heap → β → Prop}
    (hf : ∀ b : Body, L.view b.view → b.interpreted = false → Obeys L h (f b) R) :
    Obeys L h (captureBody what >>= fun view => bodySource view defLoc >>= f) R := by
  refine (obeys_captureBody what).bind_same fun view hview => ?_
  refine (obeys_bodySource view defLoc).bind_same ?_
  rintro b ⟨rfl, hi⟩
  exact hf b hview hi

theorem obeys_classDefinition (hd : d.Obeys L) (statement : Bool) :
    Obeys L h (classDefinition d statement) fun h' v => v.Valid h' := by
  unfold classDefinition
  refine obeys_next.bind_same fun t ht => ?_
  refine (obeys_advance false).bind_kept fun _ => ?_
  refine obeys_optionalWord.bind_same fun name _ => ?_
  refine .when (obeys_checkNewName _ _ ht.loc) fun _ => ?_
  refine (obeys_parentClasses hd).bind fun h₁ parents _ hparents => ?_
  refine obeys_capturedBody _ _ fun body hview hi => ?_
  refine obeys_reading.bind_same fun r hr => ?_
  have hstep : h₁.Step (h₁.alloc ⟨name, .cls {}, .empty, .empty, some r.body, some body⟩).2 := by
    refine .alloc ⟨rfl, rfl, fun _ hk => (ContainerKind.cls.inj hk).symm⟩ trivial ?_
    rintro _ ⟨⟩
    exact hr.1.body
  have hmade : L.Edits h₁ (h₁.alloc ⟨name, .cls {}, .empty, .empty, some r.body, some body⟩).2 :=
    .single (.alloc (.of_captured rfl hview hi nofun
      (by simp [ContainerKind.Naming, ContainerKind.valueKind?])))
  refine (obeys_withHeap (.single hstep) hmade).bind ?_
  rintro h₂ c hst₂ ⟨hh₂, hc⟩
  have hcls : h₂.IsKind .cls c := by
    rw [hh₂, hc]
    exact Heap.isKind_alloc rfl
  refine (obeys_forIn (I := fun _ => True) parents ?_ trivial _).bind fun h₃ _ hh₃ _ => ?_
  · intro h₃ parent _ hh₃ hmem _
    have hparent := (hparents parent hmem).mono (hst₂.trans hh₃).grows
    refine (obeys_framed (obeys_classReady hd hparent)).bind fun h₄ _ _ _ => ?_
    exact (obeys_extendClass c parent ht.loc).bind fun _ _ _ _ => .pure ⟨trivial, _, rfl⟩
  · have hv : (Value.classRef c).Valid h₃ := hcls.mono hh₃.grows
    dsimp only
    split
    · exact (obeys_bindName _ .cls trivial hv ht.loc).bind fun _ _ hh _ => .pure (hv.mono hh.grows)
    · exact .pure hv

/-! ## Functions -/

theorem raisable_undeclaredLang (word : String) {loc : Location} (hloc : L.place loc) :
    L.Raisable (undeclaredLang word loc) := by
  have hd : L.Raisable _ :=
    (Diagnostic.raisable_malformed ("Undeclared Lang '" ++ word ++ "'")).at_ hloc
  unfold undeclaredLang
  split
  · exact ⟨hd.origin, hd.pending, hd.ordinary⟩
  · split
    · exact ⟨hd.origin, hd.pending, hd.ordinary⟩
    · exact hd

theorem obeys_funcLang (hd : d.Obeys L) :
    Obeys L h (funcLang d) fun h' lang => ∀ c, lang = .guest c → h'.IsKind .lang c := by
  unfold funcLang
  refine .bind_next fun t ht => ?_
  split
  · exact ((obeys_advance true).bind_kept fun _ => .pure fun _ hc => nomatch hc).at
  · rename_i k hk
    refine (obeys_operand hd ht hk).bind fun h' o _ ho => ?_
    refine (obeys_read ho.1).bind_same fun v hv => ?_
    split
    · refine .pure ?_
      rintro _ ⟨⟩
      exact hv
    · exact obeys_malformedAt _ ht.loc
  · exact (obeys_raise (raisable_undeclaredLang _ ht.loc)).at
  · exact (obeys_malformedAt _ ht.loc).at

/-- A function is named by a word, or not at all. -/
theorem obeys_funcName :
    Obeys L h funcName fun h' name => h' = h ∧ ∀ word, name = some word → L.word word := by
  unfold funcName
  refine obeys_next.bind_same fun t ht => ?_
  refine .ite (fun _ => .pure ⟨rfl, nofun⟩) fun _ => ?_
  split
  · rename_i name hname
    refine (obeys_advance true).bind_kept fun _ => .pure ⟨rfl, ?_⟩
    rintro _ ⟨⟩
    exact ht.name name hname
  · exact obeys_malformedAt _ ht.loc

theorem obeys_funcDefinition (hd : d.Obeys L) (statement : Bool) :
    Obeys L h (funcDefinition d statement) fun h' v => v.Valid h' := by
  unfold funcDefinition
  refine obeys_next.bind_same fun t ht => ?_
  refine (obeys_advance true).bind_kept fun _ => ?_
  refine (obeys_funcLang hd).bind fun h₁ lang hh₁ hlang => ?_
  refine (obeys_returnType hd).bind fun h₂ ret hh₂ hret => ?_
  refine obeys_funcName.bind_same fun name hname => ?_
  refine .when (obeys_checkNewName _ _ ht.loc) fun _ => ?_
  refine (obeys_nextIsPunct _).bind_kept fun b => ?_
  refine .when (obeys_failAfterCurr _) fun _ => ?_
  refine (obeys_parameters hd).bind fun h₃ params hh₃ hparams => ?_
  refine obeys_capturedBody _ _ fun body hview hi => ?_
  refine obeys_reading.bind_same fun r hr => ?_
  have hdata : FuncData.Valid h₃ { params, ret, lang } :=
    ⟨hparams, fun ty hty => (hret ty hty).mono hh₃.grows,
      fun c hc => (hlang c hc).mono (hh₂.trans hh₃).grows⟩
  have hstep : h₃.Step (h₃.alloc ⟨name, .func { params, ret, lang }, .empty, .empty, some r.body,
      some body⟩).2 := by
    refine .alloc ⟨rfl, rfl, fun _ hk => nomatch hk⟩ hdata ?_
    rintro _ ⟨⟩
    exact hr.1.body
  have hmade : L.Edits h₃ (h₃.alloc ⟨name, .func { params, ret, lang }, .empty, .empty, some r.body,
      some body⟩).2 := by
    refine .single (.alloc (.of_captured rfl hview hi (by rintro _ ⟨⟩; exact ⟨rfl, rfl⟩) fun _ => ?_))
    cases name with
    | none => exact L.anonymous
    | some word => exact hname word rfl
  refine (obeys_withHeap (.single hstep) hmade).bind ?_
  rintro h₄ f - ⟨hh₄, hf⟩
  have hv : (Value.funcRef f).Valid h₄ := by
    rw [hh₄, hf]
    exact Heap.isKind_alloc rfl
  dsimp only
  split
  · exact (obeys_bindName _ .func trivial hv ht.loc).bind fun _ _ hh _ => .pure (hv.mono hh.grows)
  · exact .pure hv

/-! ## Langs -/

theorem obeys_mergeLangs {left : ContainerId} (hleft : h.IsKind .lang left) (right : ContainerId) :
    Obeys L h (withHeap (·.mergeLangs left right)) fun h' c => (Value.langRef c).Valid h' := by
  have hstep : h.Step (h.mergeLangs left right).2 := .mergeLangs left right
  refine (obeys_withHeap (f := fun g : Heap => g.mergeLangs left right) (.single hstep)
    (.single (.mergeLangs right hleft))).mono ?_
  rintro _ _ - ⟨rfl, rfl⟩
  exact Heap.isKind_alloc rfl

theorem obeys_langDefinition (hd : d.Obeys L) : Obeys L h (langDefinition d) fun _ _ => True := by
  unfold langDefinition
  refine obeys_next.bind_same fun t ht => ?_
  refine (obeys_advance false).bind_kept fun _ => ?_
  refine obeys_optionalWord.bind_same fun word hword => ?_
  split
  · exact obeys_failAtNext _
  · rename_i name
    refine obeys_capturedBody _ _ fun body hview hi => ?_
    refine obeys_reading.bind_same fun r hr => ?_
    have hstep : h.Step (h.alloc ⟨some name, .lang, .empty, .empty, some r.body, some body⟩).2 := by
      refine .alloc ⟨rfl, rfl, fun _ hk => nomatch hk⟩ trivial ?_
      rintro _ ⟨⟩
      exact hr.1.body
    have hmade : L.Edits h (h.alloc ⟨some name, .lang, .empty, .empty, some r.body, some body⟩).2 :=
      .single (.alloc (.of_captured rfl hview hi nofun fun _ => hword name rfl))
    refine (obeys_withHeap (.single hstep) hmade).bind ?_
    rintro h₁ lang - ⟨hh₁, hlang⟩
    have hkind : h₁.IsKind .lang lang := by
      rw [hh₁, hlang]
      exact Heap.isKind_alloc rfl
    have hbody : (h₁.container lang).body.isSome := by
      rw [hh₁, hlang, Heap.container_alloc, if_pos (by rfl)]
      rfl
    refine (obeys_framed (hd.ready h₁ lang hkind.lt_size (.inr hkind) (.inr hbody))).bind
      fun h₂ _ hh₂ _ => ?_
    have hv : (Value.langRef lang).Valid h₂ := hkind.mono hh₂.grows
    refine .of_reachable fun hreach => .bind_heap ?_
    split
    · rename_i s hs
      refine (obeys_ofHeapAt ht.loc fun _ => Heap.ordinary_assign).bind_same fun h₃ hok => ?_
      have hslot := hreach.closed.hasSlot_findLocal? hs
      exact (obeys_setHeap (.single (.assign hslot hv hok)) (.single (.assign hreach.closed hok))).mono
        fun _ _ _ _ => trivial
    · split
      · rename_i previous hprevious
        obtain ⟨s, -, hvalue⟩ := Option.map_eq_some_iff.1 hprevious
        have hleft : (h₂.value s).Valid h₂ := (hreach.closed.slot s).value
        rw [hvalue] at hleft
        have hmerge := obeys_mergeLangs (L := L) hleft lang
        generalize withHeap (·.mergeLangs previous lang) = merging at hmerge ⊢
        exact hmerge.bind fun _ merged _ hm => obeys_bindName name .lang trivial hm ht.loc
      · exact obeys_bindName _ .lang trivial hv ht.loc

end Eval
end Ditlang
