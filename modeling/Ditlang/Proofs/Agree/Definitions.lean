import Ditlang.Proofs.Agree.Paths
import Ditlang.Proofs.Eval.Definitions

/-!
# Ditlang.Proofs.Agree.Definitions

Taking types and definitions does the same in two runs side by side. A body is captured with its
text, and the class, function or Lang that is made of it differs only in where the text stands.
-/

namespace Ditlang
namespace Eval

open Source (Location View)

variable {p : Pairing} {h : Heap} {d : Deeper}

/-! ## Types -/

theorem agrees_parseType (hd : d.Agrees) :
    Agrees p h (parseType d) (parseType d) fun h' ty => ty.Valid h' := by
  unfold parseType
  refine (agrees_nextIs _).bind_kept ?_
  rintro list - rfl
  refine .when (agrees_advance true) fun _ => ?_
  refine agrees_next.bind_same fun t u _ htu => ?_
  rw [← htu.kind]
  split
  · exact (agrees_advance true).bind_kept fun _ _ _ => .done (valid_ofPrimitive _)
  · refine (agrees_operand hd).bind ?_
    rintro h' o _ - ho rfl
    refine (agrees_read ho).bind_same ?_
    rintro v _ hv rfl
    split
    · exact .done hv
    · exact agrees_malformedAt _ _ _
  · exact agrees_undeclared htu
  · exact agrees_malformedAt _ _ _

theorem agrees_returnType (hd : d.Agrees) :
    Agrees p h (returnType d) (returnType d) fun h' ret => ∀ ty, ret = some ty → ty.Valid h' := by
  unfold returnType
  refine (agrees_nextIs _).bind_kept ?_
  rintro b - rfl
  refine .ite (fun _ => ?_) fun _ => ?_
  · exact (agrees_advance true).bind_kept fun _ _ _ => .done fun _ hty => nomatch hty
  · refine (agrees_parseType hd).bind ?_
    rintro h' ty _ - hty rfl
    refine .done ?_
    rintro _ ⟨⟩
    exact hty

theorem agrees_parameters (hd : d.Agrees) :
    Agrees p h (parameters d) (parameters d)
      fun h' params => ∀ p ∈ params, p.declared.Valid h' := by
  unfold parameters
  refine (agrees_advance true).bind_kept fun _ _ _ => ?_
  refine agrees_repeatTokens (I := fun h' params => ∀ p ∈ params, p.declared.Valid h') ?_
    (fun _ hp => nomatch hp)
  intro h' params _ hparams
  refine (agrees_nextIsPunct _).bind_kept ?_
  rintro b - rfl
  refine .ite (fun _ => ?_) fun _ => ?_
  · exact (agrees_advance true).bind_kept fun _ _ _ => .done hparams
  · refine (agrees_parseType hd).bind ?_
    rintro h'' ty _ hh'' hty rfl
    refine agrees_next.bind_same fun t u _ htu => ?_
    rw [← htu.name?]
    split
    · exact agrees_malformedAt _ _ _
    · rename_i name _
      refine .when (agrees_malformedAt _ _ _) fun _ => ?_
      refine (agrees_advance true).bind_kept fun _ _ _ => ?_
      refine agrees_separator _ _ fun _ => .done ?_
      intro q hq
      rcases List.mem_append.1 hq with hq | hq
      · exact (hparams q hq).mono hh''.grows
      · exact List.mem_singleton.1 hq ▸ hty

/-! ## Classes -/

theorem agrees_parentClasses (hd : d.Agrees) :
    Agrees p h (parentClasses d) (parentClasses d)
      fun h' parents => ∀ c ∈ parents, h'.IsKind .cls c := by
  unfold parentClasses
  refine (agrees_nextIs _).bind_kept ?_
  rintro b - rfl
  refine .ite (fun _ => ?_) fun _ => .done fun _ hc => nomatch hc
  refine agrees_repeatTokens (I := fun h' parents => ∀ c ∈ parents, h'.IsKind .cls c) ?_
    (fun _ hc => nomatch hc)
  intro h' parents _ hparents
  refine (agrees_advance true).bind_kept fun _ _ _ => ?_
  refine agrees_next.bind_same fun t u _ htu => ?_
  rw [← htu.kind]
  split
  · refine (agrees_operand hd).bind ?_
    rintro h'' o _ hh'' ho rfl
    refine (agrees_read ho).bind_same ?_
    rintro v _ hv rfl
    split
    · rename_i c
      have hall : ∀ x ∈ parents ++ [c], h''.IsKind .cls x := by
        intro x hx
        rcases List.mem_append.1 hx with hx | hx
        · exact (hparents x hx).mono hh''.grows
        · exact List.mem_singleton.1 hx ▸ hv
      refine (agrees_nextIsPunct _).bind_kept ?_
      rintro b - rfl
      exact .ite (fun _ => .done hall) fun _ => .done hall
    · exact agrees_malformedAt _ _ _
  · exact agrees_undeclared htu
  · exact agrees_malformedAt _ _ _

theorem agrees_optionalWord : Agrees p h optionalWord optionalWord fun h' _ => h' = h := by
  unfold optionalWord
  refine (agrees_nextIs _).bind_kept ?_
  rintro b - rfl
  refine .ite (fun _ => ?_) fun _ => .done rfl
  refine agrees_next.bind_same fun t u _ htu => ?_
  dsimp only
  rw [← htu.word]
  exact (agrees_advance true).bind_kept fun _ _ _ => .done rfl

theorem agrees_extendClass (c parent : ContainerId) (loc loc' : Location) :
    Agrees p h (extendClass c parent loc) (extendClass c parent loc') fun _ _ => True := by
  unfold extendClass
  refine .bind_heap fun k hk => ?_
  have hsame := hk.map (f := (·.addParent c parent)) fun h => h.addParent_unplaced p.main c parent
  refine .bind_ofHeapAt _ hsame (fun h' k' hok hk' => ?_) loc loc'
  exact (agrees_setHeap (.single (.addParent hok)) hk').mono fun _ _ _ _ => trivial

theorem agrees_classDefinition (hd : d.Agrees) (statement : Bool) :
    Agrees p h (classDefinition d statement) (classDefinition d statement)
      fun h' v => v.Valid h' := by
  unfold classDefinition
  refine agrees_next.bind_same fun t u _ _ => ?_
  refine (agrees_advance false).bind_kept fun _ _ _ => ?_
  refine agrees_optionalWord.bind_kept ?_
  rintro name - rfl
  refine .when (agrees_checkNewName _ _ _ _) fun _ => ?_
  refine (agrees_parentClasses hd).bind ?_
  rintro h₁ parents _ - hparents rfl
  refine (agrees_captureBody _).bind_kept fun view view' hview => ?_
  refine (agrees_bodySource hview _ _).bind_kept fun body body' hbody => ?_
  refine agrees_reading.bind_same fun r q hr hrq => ?_
  rw [← hrq.body]
  have hstep : h₁.Step (h₁.alloc ⟨name, .cls {}, .empty, .empty, some r.body, some body⟩).2 := by
    refine .alloc ⟨rfl, rfl, fun _ hk => (ContainerKind.cls.inj hk).symm⟩ trivial ?_
    rintro _ ⟨⟩
    exact hr.body
  have hbodies := Container.unplaced_congr ⟨name, .cls {}, .empty, .empty, some r.body, none⟩
    (x := some body) (y := some body') (congrArg some hbody)
  refine (agrees_alloc hstep hbodies).bind ?_
  rintro h₂ c _ hsteps ⟨hh₂, hc⟩ rfl
  have hcls : h₂.IsKind .cls c := by
    rw [hh₂, hc]
    exact Heap.isKind_alloc rfl
  refine (agrees_forIn (I := fun _ => True) parents ?_ trivial _).bind fun h₃ _ _ hh₃ _ _ => ?_
  · intro h₃ parent _ hh₃ hmem _
    have hparent : h₃.IsKind .cls parent := (hparents parent hmem).mono (hsteps.trans hh₃).grows
    refine (agrees_framed (agrees_ensureReady hd (hparent.not_isKind (by simp)))).bind
      fun h₄ _ _ _ _ _ => ?_
    exact (agrees_extendClass c parent _ _).bind fun _ _ _ _ _ _ => .done ⟨trivial, _, rfl⟩
  · have hv : (Value.classRef c).Valid h₃ := hcls.mono hh₃.grows
    dsimp only
    split
    · refine (agrees_bindName _ .cls trivial hv _ _).bind fun _ _ _ hh _ _ => ?_
      exact .done (hv.mono hh.grows)
    · exact .done hv

/-! ## Functions -/

theorem undeclaredLang_unplaced (word : String) (loc loc' : Location) :
    (undeclaredLang word loc).unplaced = (undeclaredLang word loc').unplaced := by
  unfold undeclaredLang
  split
  · rfl
  · split
    · rfl
    · rfl

theorem agrees_funcLang (hd : d.Agrees) :
    Agrees p h (funcLang d) (funcLang d)
      fun h' lang => ∀ c, lang = .guest c → h'.IsKind .lang c := by
  unfold funcLang
  refine agrees_next.bind_same fun t u _ htu => ?_
  rw [← htu.kind]
  split
  · exact (agrees_advance true).bind_kept fun _ _ _ => .done fun _ hc => nomatch hc
  · refine (agrees_operand hd).bind ?_
    rintro h' o _ - ho rfl
    refine (agrees_read ho).bind_same ?_
    rintro v _ hv rfl
    split
    · refine .done ?_
      rintro _ ⟨⟩
      exact hv
    · exact agrees_malformedAt _ _ _
  · rw [← htu.word]
    exact agrees_raise (undeclaredLang_unplaced _ _ _)
  · exact agrees_malformedAt _ _ _

theorem agrees_funcName : Agrees p h funcName funcName fun h' _ => h' = h := by
  unfold funcName
  refine agrees_next.bind_same fun t u _ htu => ?_
  rw [← htu.kind, ← htu.name?]
  refine .ite (fun _ => .done rfl) fun _ => ?_
  split
  · exact (agrees_advance true).bind_kept fun _ _ _ => .done rfl
  · exact agrees_malformedAt _ _ _

theorem agrees_funcDefinition (hd : d.Agrees) (statement : Bool) :
    Agrees p h (funcDefinition d statement) (funcDefinition d statement)
      fun h' v => v.Valid h' := by
  unfold funcDefinition
  refine agrees_next.bind_same fun t u _ _ => ?_
  refine (agrees_advance true).bind_kept fun _ _ _ => ?_
  refine (agrees_funcLang hd).bind ?_
  rintro h₁ lang _ hh₁ hlang rfl
  refine (agrees_returnType hd).bind ?_
  rintro h₂ ret _ hh₂ hret rfl
  refine agrees_funcName.bind_kept ?_
  rintro name - rfl
  refine .when (agrees_checkNewName _ _ _ _) fun _ => ?_
  refine (agrees_nextIsPunct _).bind_kept ?_
  rintro b - rfl
  refine .when (agrees_failAfterCurr _) fun _ => ?_
  refine (agrees_parameters hd).bind ?_
  rintro h₃ params _ hh₃ hparams rfl
  refine (agrees_captureBody _).bind_kept fun view view' hview => ?_
  refine (agrees_bodySource hview _ _).bind_kept fun body body' hbody => ?_
  refine agrees_reading.bind_same fun r q hr hrq => ?_
  rw [← hrq.body]
  have hdata : FuncData.Valid h₃ { params, ret, lang } :=
    ⟨hparams, fun ty hty => (hret ty hty).mono hh₃.grows,
      fun c hc => (hlang c hc).mono (hh₂.trans hh₃).grows⟩
  have hstep : h₃.Step (h₃.alloc ⟨name, .func { params, ret, lang }, .empty, .empty, some r.body,
      some body⟩).2 := by
    refine .alloc ⟨rfl, rfl, fun _ hk => nomatch hk⟩ hdata ?_
    rintro _ ⟨⟩
    exact hr.body
  have hbodies := Container.unplaced_congr
    ⟨name, .func { params, ret, lang }, .empty, .empty, some r.body, none⟩
    (x := some body) (y := some body') (congrArg some hbody)
  refine (agrees_alloc hstep hbodies).bind ?_
  rintro h₄ f _ - ⟨hh₄, hf⟩ rfl
  have hv : (Value.funcRef f).Valid h₄ := by
    rw [hh₄, hf]
    exact Heap.isKind_alloc rfl
  dsimp only
  split
  · refine (agrees_bindName _ .func trivial hv _ _).bind fun _ _ _ hh _ _ => ?_
    exact .done (hv.mono hh.grows)
  · exact .done hv

/-! ## Langs -/

theorem agrees_mergeLangs (left right : ContainerId) :
    Agrees p h (withHeap (·.mergeLangs left right)) (withHeap (·.mergeLangs left right))
      fun h' c => (Value.langRef c).Valid h' := by
  have hstep : h.Step (h.mergeLangs left right).2 := .mergeLangs left right
  refine (agrees_withHeap (f := fun g : Heap => g.mergeLangs left right) (.single hstep)
    fun h => h.mergeLangs_unplaced p.main left right).mono ?_
  rintro _ _ - ⟨rfl, rfl⟩
  exact Heap.isKind_alloc rfl

theorem agrees_langDefinition (hd : d.Agrees) :
    Agrees p h (langDefinition d) (langDefinition d) fun _ _ => True := by
  unfold langDefinition
  refine agrees_next.bind_same fun t u _ _ => ?_
  refine (agrees_advance false).bind_kept fun _ _ _ => ?_
  refine agrees_optionalWord.bind_kept ?_
  rintro word - rfl
  split
  · exact agrees_failAtNext _
  · rename_i name
    refine (agrees_captureBody _).bind_kept fun view view' hview => ?_
    refine (agrees_bodySource hview _ _).bind_kept fun body body' hbody => ?_
    refine agrees_reading.bind_same fun r q hr hrq => ?_
    dsimp only
    rw [← hrq.body]
    have hstep : h.Step (h.alloc ⟨some name, .lang, .empty, .empty, some r.body, some body⟩).2 := by
      refine .alloc ⟨rfl, rfl, fun _ hk => nomatch hk⟩ trivial ?_
      rintro _ ⟨⟩
      exact hr.body
    have hbodies := Container.unplaced_congr
      ⟨some name, .lang, .empty, .empty, some r.body, none⟩
      (x := some body) (y := some body') (congrArg some hbody)
    refine (agrees_alloc hstep hbodies).bind ?_
    rintro h₁ lang _ - ⟨hh₁, hlang⟩ rfl
    have hkind : h₁.IsKind .lang lang := by
      rw [hh₁, hlang]
      exact Heap.isKind_alloc rfl
    refine (agrees_framed (agrees_ensureReady hd (hkind.not_isKind (by simp)))).bind
      fun h₂ _ _ hh₂ _ _ => ?_
    have hv : (Value.langRef lang).Valid h₂ := hkind.mono hh₂.grows
    refine .of_reachable fun hreach => .bind_heap fun k hk => ?_
    rw [← hk.eq (f := (·.findLocal? r.body name)) fun h => h.findLocal?_unplaced p.main _ _]
    split
    · rename_i s hs
      have hslot := hreach.closed.hasSlot_findLocal? hs
      have hsame := hk.map (f := (·.assign s (.langRef lang)))
        fun h => h.assign_unplaced p.main s _
      refine .bind_ofHeapAt _ hsame (fun h₃ k₃ hok hk₃ => ?_) _ _
      exact (agrees_setHeap (.single (.assign hslot hv hok)) hk₃).mono fun _ _ _ _ => trivial
    · rw [← hk.eq (f := fun h => (h.findInScope? r.body name).map h.value) fun h => by simp]
      split
      · refine (agrees_mergeLangs _ _).bind ?_
        rintro h₃ merged _ - hm rfl
        exact agrees_bindName _ .lang trivial hm _ _
      · exact agrees_bindName _ .lang trivial hv _ _

end Eval
end Ditlang
