import Ditlang.Proofs.Cursor.Paths

/-!
# Ditlang.Proofs.Cursor.Definitions

How types, definitions and terms go. A definition ends at the brace that closes its body, which is still
ahead then; everything else has taken its last token.
-/

namespace Ditlang
namespace Eval

open Source (Location View)

/-! ## Rounds -/

def parentRound (d : Deeper) [Calling d] (parents : List ContainerId) :
    Eval (List ContainerId ⊕ List ContainerId) := do
  advance true
  let t ← next
  match t.kind with
  | .value _ =>
    match ← read (← operand d) with
    | .classRef c =>
      if ← nextIsPunct .comma then
        return .inl (parents ++ [c])
      else
        return .inr (parents ++ [c])
    | other =>
      malformedAt ("Classes can only extend classes, got '" ++ other.typeName ++ "'") t.loc
  | .newName => undeclared t
  | _ => malformedAt "Expected a class to extend" t.loc

theorem parentClasses_eq (d : Deeper) [Calling d] :
    parentClasses d = (do
      if ← nextIs (.keyword .extendsKw) then repeatTokens (parentRound d) [] else pure []) := rfl

def parameterRound (d : Deeper) [Calling d] (params : List Param) :
    Eval (List Param ⊕ List Param) := do
  if ← nextIsPunct .parenRight then
    advance true
    return .inr params
  else
    let declared ← parseType d
    let t ← next
    match t.name? with
    | none => malformedAt "Expected a parameter name" t.loc
    | some name =>
      if params.any (·.name == name) then
        malformedAt ("Duplicate parameter '" ++ name ++ "'") t.loc
      advance true
      if ← nextIsPunct .comma then
        advance true
      else if !(← nextIsPunct .parenRight) then
        failAfterCurr "Expected ')'"
      return .inl (params ++ [⟨name, declared⟩])

theorem parameters_eq (d : Deeper) [Calling d] :
    parameters d = (do advance true; repeatTokens (parameterRound d) []) := rfl

/-- One more entry of a JSON map, or its end. -/
def entryRound (d : Deeper) (entries : OrderedMap Value) :
    Eval (OrderedMap Value ⊕ OrderedMap Value) := do
  if ← nextIsPunct .braceRight then
    advance true
    return .inr entries
  else
    let key ← jsonKey
    if !(← nextIsPunct .colon) then
      failAfterCurr "Expected ':'"
    advance true
    let v ← expression d
    if ← nextIsPunct .comma then
      advance true
    else if !(← nextIsPunct .braceRight) then
      failAfterCurr "Expected '\x7d'"
    return .inl (entries.insert key v)

theorem jsonLiteral_eq (d : Deeper) :
    jsonLiteral d = (do
      advance true
      let entries ← repeatTokens (entryRound d) .empty
      pure (.jsonRef (← withHeap (·.newMap entries)))) := rfl

theorem ne_eof_of_name {t : Token} {name : String} (hname : t.name? = some name) : t.kind ≠ .eof := by
  intro heof
  rw [Token.name?, heof] at hname
  cases hname

/-- A definition was gone through: the brace that closes its body is ahead. -/
abbrev Closing {α : Type} (s : EvalState) (_ : α) (t : EvalState) : Prop :=
  s.reading.Passes t.reading ∧ s.reading.Closes t.reading

theorem Closing.still {α β : Type} {a : α} {b : β} {s t u : EvalState} (ht : Closing s a t)
    (hu : u.reading = t.reading) : Closing s b u := by
  show s.reading.Passes u.reading ∧ s.reading.Closes u.reading
  rw [hu]
  exact ht

variable {I : ContainerId → Heap → Prop} {spent : Prop} {s : EvalState} {d : Deeper} {n : Nat}

theorem proceeds_optionalWord : Proceeds I spent s optionalWord (Onward s) := by
  unfold optionalWord
  refine .bind_nextIs fun _ _ => .ite (fun _ => .bind_next ?_) fun _ => .pure (.refl _)
  exact (proceeds_advance true).bind fun _ _ ht => .pure (.inr ht)

section

variable [Calling d] (hd : d.Answering I spent n)

include hd

/-! ## Types -/

theorem proceeds_parseType (hs : s.reading.Sharp) (hw : s.reading.Fits spent n) :
    Proceeds I spent s (parseType d) (Past s) := by
  have hlist : Proceeds I spent s (advance true) (Onward s) :=
    (proceeds_advance true).mono fun _ _ => .inr
  unfold parseType
  refine .bind_nextIs fun list _ => .when hlist (.refl _) fun t hst => .bind_next ?_
  split
  · rename_i hkind
    have hne : t.reading.next.kind ≠ .eof := by simp [hkind]
    exact (proceeds_take hne true).bind fun _ u hu => .pure (hst.passes hs hu)
  · rename_i hkind
    have hne : t.reading.next.kind ≠ .eof := by simp [hkind]
    refine (proceeds_operand hd hne (hw.reaches hst).succ).bind fun o u hu => ?_
    refine (proceeds_read o).bind fun v w hw => ?_
    split
    · exact .pure ((hst.passes hs hu).on (.of_eq hw))
    · exact proceeds_malformedAt _ _
  · exact proceeds_undeclared _
  · exact proceeds_malformedAt _ _

theorem proceeds_returnType (hs : s.reading.Sharp) (hw : s.reading.Fits spent n) :
    Proceeds I spent s (returnType d) (Past s) := by
  unfold returnType
  refine .bind_nextIs fun b hb => .ite (fun hvoid => ?_) fun _ => ?_
  · have hne : s.reading.next.kind ≠ .eof := by simp [hb.1 hvoid]
    exact (proceeds_take hne true).bind fun _ _ ht => .pure ht
  · exact (proceeds_parseType hd hs hw).bind fun _ _ ht => .pure ht

theorem proceeds_parameterRound (params : List Param) (hs : s.reading.Sharp)
    (hw : s.reading.Fits spent n) :
    Proceeds I spent s (parameterRound d params) (Marches (Past s) s) := by
  unfold parameterRound
  refine .bind_nextIsPunct fun b hb => .ite (fun hclose => ?_) fun _ => ?_
  · have hne : s.reading.next.kind ≠ .eof := by simp [hb.1 hclose]
    exact (proceeds_take hne true).bind fun _ t ht => .pure ht
  · refine (proceeds_parseType hd hs hw).bind fun declared t ht => .bind_next ?_
    split
    · exact proceeds_malformedAt _ _
    · refine .check (proceeds_malformedAt _ _) fun _ => ?_
      refine (proceeds_advance true).bind fun _ u hu => ?_
      exact proceeds_separator _ _ fun _ v hv => .pure (ht.on (.trans (.inr hu) hv))

theorem proceeds_parameters (hne : s.reading.next.kind ≠ .eof) (hw : s.reading.Fits spent n) :
    Proceeds I spent s (parameters d) (Past s) := by
  rw [parameters_eq]
  refine (proceeds_take hne true).bind fun _ t ht => ?_
  refine (proceeds_repeatTokens (Q := Past) ht.sharp (fun _ _ _ h => h.passes ht.sharp)
    (fun params u hu htu => ?_) []).mono fun _ _ hu => ht.on hu.reaches
  exact proceeds_parameterRound hd params hu (hw.reaches (ht.reaches.trans htu))

/-! ## Classes -/

theorem proceeds_parentRound (parents : List ContainerId) (hs : s.reading.Sharp)
    (hw : s.reading.Fits spent n) :
    Proceeds I spent s (parentRound d parents) (Marches (Past s) s) := by
  unfold parentRound
  refine (proceeds_advance true).bind fun _ t ht => .bind_next ?_
  split
  · rename_i hkind
    -- A name can only be ahead if `extends` or a comma was.
    have hne : t.reading.next.kind ≠ .eof := by simp [hkind]
    have hpast := ht.passes hs hne
    refine (proceeds_operand hd hne (hw.reaches hpast.reaches).succ).bind fun o u hu => ?_
    refine (proceeds_read o).bind fun v w hw => ?_
    have hpast : s.reading.Passes w.reading := hpast.on (hu.reaches.trans (.of_eq hw))
    split
    · exact .bind_nextIsPunct fun _ _ => .ite (fun _ => .pure hpast) fun _ => .pure hpast
    · exact proceeds_malformedAt _ _
  · exact proceeds_undeclared _
  · exact proceeds_malformedAt _ _

theorem proceeds_parentClasses (hs : s.reading.Sharp) (hw : s.reading.Fits spent n) :
    Proceeds I spent s (parentClasses d) (Onward s) := by
  rw [parentClasses_eq]
  refine .bind_nextIs fun _ _ => .ite (fun _ => ?_) fun _ => .pure (.refl _)
  refine (proceeds_repeatTokens (Q := Past) hs (fun _ _ _ h => h.passes hs)
    (fun parents t ht hst => ?_) []).mono fun _ _ ht => ht.reaches
  exact proceeds_parentRound hd parents ht (hw.reaches hst)

omit [Calling d] hd in
theorem proceeds_extendClass (hI : Heap.Upheld I) (c parent : ContainerId) (loc : Location) :
    Proceeds I spent s (extendClass c parent loc) (Still s) :=
  .bind_heap (.bind_ofHeapAt fun _ hok => proceeds_setSpared hI (Heap.spares_addParent hok))

theorem proceeds_classDefinition (statement : Bool) (hne : s.reading.next.kind ≠ .eof)
    (hw : s.reading.Fits spent (n + 1)) :
    Proceeds I spent s (classDefinition d statement) (Closing s) := by
  unfold classDefinition
  refine .bind_next ((proceeds_take hne false).bind fun _ t₁ h₁ => ?_)
  refine proceeds_optionalWord.bind fun name t₂ h₂ => ?_
  refine .when (proceeds_checkNewName _ _ _) rfl fun t ht => ?_
  have hpast : s.reading.Passes t.reading := h₁.on (h₂.trans (.of_eq ht))
  refine (proceeds_parentClasses hd hpast.sharp (hw.passes hpast)).bind fun parents t₃ h₃ => ?_
  refine (proceeds_captureBody "class").bind ?_
  rintro view t₄ ⟨h₄, hcloses⟩
  have hclosing : Closing s () t₄ :=
    ⟨hpast.on (h₃.trans h₄.reaches), hcloses.of_reaches (hpast.reaches.trans h₃)⟩
  refine (proceeds_bodySource _ _).bind fun body t₅ h₅ => .bind_reading ?_
  refine (proceeds_alloc hd.upheld rfl (by simp [ContainerKind.valueKind?])).bind ?_
  rintro c t₆ ⟨h₆, -⟩
  refine (proceeds_forIn (J := fun t => t.reading = t₄.reading) parents ?_ (h₆.trans h₅) _).bind
    fun _ t₇ h₇ => ?_
  · intro parent _ t ht
    refine (proceeds_framed (proceeds_ensureReady hd.toProceeding parent)).bind fun _ u hu => ?_
    exact (proceeds_extendClass hd.upheld _ _ _).bind fun _ v hv =>
      .pure ⟨hv.trans (hu.trans ht), _, rfl⟩
  · dsimp only
    split
    · exact (proceeds_bindName hd.upheld _ _ _ _).bind fun _ _ ht =>
        .pure (hclosing.still (ht.trans h₇))
    · exact .pure (hclosing.still h₇)

/-! ## Functions -/

theorem proceeds_funcLang (hw : s.reading.Fits spent n) :
    Proceeds I spent s (funcLang d) (Onward s) := by
  unfold funcLang
  refine .bind_next ?_
  split
  · exact (proceeds_advance true).bind fun _ _ ht => .pure (.inr ht)
  · rename_i hkind
    refine (proceeds_operand hd (by simp [hkind]) hw.succ).bind fun o t ht => ?_
    refine (proceeds_read o).bind fun v u hu => ?_
    split
    · exact .pure (ht.reaches.trans (.of_eq hu))
    · exact proceeds_malformedAt _ _
  · exact proceeds_raise _
  · exact proceeds_malformedAt _ _

omit [Calling d] hd in
theorem proceeds_funcName : Proceeds I spent s funcName (Onward s) := by
  unfold funcName
  refine .bind_next (.ite (fun _ => .pure (.refl _)) fun _ => ?_)
  split
  · exact (proceeds_advance true).bind fun _ _ ht => .pure (.inr ht)
  · exact proceeds_malformedAt _ _

theorem proceeds_funcDefinition (statement : Bool) (hne : s.reading.next.kind ≠ .eof)
    (hw : s.reading.Fits spent (n + 1)) :
    Proceeds I spent s (funcDefinition d statement) (Closing s) := by
  unfold funcDefinition
  refine .bind_next ((proceeds_take hne true).bind fun _ t₁ h₁ => ?_)
  have hw₁ := hw.passes h₁
  refine (proceeds_funcLang hd hw₁).bind fun lang t₂ h₂ => ?_
  refine (proceeds_returnType hd (h₂.sharp h₁.sharp) (hw₁.reaches h₂)).bind fun ret t₃ h₃ => ?_
  refine proceeds_funcName.bind fun name t₄ h₄ => ?_
  refine .when (proceeds_checkNewName _ _ _) rfl fun t ht => ?_
  have hpast : s.reading.Passes t.reading :=
    h₁.on (h₂.trans (h₃.reaches.trans (h₄.trans (.of_eq ht))))
  refine .bind_nextIsPunct fun b hb => .check (proceeds_failAfterCurr _) fun hparen => ?_
  have hne : t.reading.next.kind ≠ .eof := by simp [hb.1 (by simpa using hparen)]
  refine (proceeds_parameters hd hne (hw.passes hpast)).bind fun params t₅ h₅ => ?_
  refine (proceeds_captureBody "function").bind ?_
  rintro view t₆ ⟨h₆, hcloses⟩
  have hclosing : Closing s () t₆ :=
    ⟨hpast.on (h₅.reaches.trans h₆.reaches), hcloses.of_reaches (hpast.reaches.trans h₅.reaches)⟩
  refine (proceeds_bodySource _ _).bind fun body t₇ h₇ => .bind_reading ?_
  refine (proceeds_alloc hd.upheld rfl (by simp [ContainerKind.valueKind?])).bind ?_
  rintro f t₈ ⟨h₈, -⟩
  have hmade : t₈.reading = t₆.reading := h₈.trans h₇
  dsimp only
  split
  · exact (proceeds_bindName hd.upheld _ _ _ _).bind fun _ _ ht =>
      .pure (hclosing.still (ht.trans hmade))
  · exact .pure (hclosing.still hmade)

/-! ## Langs -/

theorem proceeds_langDefinition (hne : s.reading.next.kind ≠ .eof) :
    Proceeds I spent s (langDefinition d) (Closing s) := by
  unfold langDefinition
  refine .bind_next ((proceeds_take hne false).bind fun _ t₁ h₁ => ?_)
  refine proceeds_optionalWord.bind fun word t₂ h₂ => ?_
  split
  · exact proceeds_failAtNext _
  · refine (proceeds_captureBody "lang").bind ?_
    rintro view t₃ ⟨h₃, hcloses⟩
    have hclosing : Closing s () t₃ :=
      ⟨h₁.on (h₂.trans h₃.reaches), hcloses.of_reaches (h₁.reaches.trans h₂)⟩
    refine (proceeds_bodySource _ _).bind fun body t₄ h₄ => .bind_reading ?_
    refine (proceeds_alloc hd.upheld rfl (by simp [ContainerKind.valueKind?])).bind ?_
    rintro lang t₅ ⟨h₅, -⟩
    refine (proceeds_framed (proceeds_ensureReady hd.toProceeding lang)).bind fun _ t₆ h₆ => ?_
    refine .bind_heap ?_
    have hready : t₆.reading = t₃.reading := h₆.trans (h₅.trans h₄)
    split
    · refine .bind_ofHeapAt fun _ hok => ?_
      exact (proceeds_setSpared hd.upheld (Heap.spares_assign hok)).mono fun _ _ ht =>
        hclosing.still (ht.trans hready)
    · split
      · rename_i previous _
        have hmerge : Proceeds I spent t₆ (withHeap (·.mergeLangs previous lang)) (Still t₆) :=
          proceeds_withSpared hd.upheld (Heap.spares_mergeLangs previous lang)
        refine hmerge.bind fun merged t₇ h₇ => ?_
        exact (proceeds_bindName hd.upheld _ _ _ _).mono fun _ _ ht =>
          hclosing.still (ht.trans (h₇.trans hready))
      · exact (proceeds_bindName hd.upheld _ _ _ _).mono fun _ _ ht =>
          hclosing.still (ht.trans hready)

/-! ## Terms -/

theorem proceeds_listLiteral (hne : s.reading.next.kind ≠ .eof)
    (hw : s.reading.Fits spent (n + 1)) : Proceeds I spent s (listLiteral d) (Past s) := by
  unfold listLiteral
  refine (proceeds_take hne true).bind fun _ t ht => ?_
  refine (proceeds_expressionsUntil hd ht.sharp (hw.passes ht)).bind fun items u hu => ?_
  refine (proceeds_withSpared hd.upheld (.of_containers rfl)).bind fun _ v hv => .pure ?_
  exact ht.on (hu.reaches.trans (.of_eq hv))

omit [Calling d] hd in
theorem proceeds_jsonKey : Proceeds I spent s jsonKey (Past s) := by
  unfold jsonKey
  refine .bind_next ?_
  split
  · rename_i hkind
    exact proceeds_stringLiteral (by simp [hkind])
  · rename_i hkind
    exact proceeds_stringLiteral (by simp [hkind])
  · split
    · rename_i hname
      exact (proceeds_take (ne_eof_of_name hname) true).bind fun _ _ ht => .pure ht
    · exact proceeds_malformedAt _ _

theorem proceeds_entryRound (entries : OrderedMap Value) (hw : s.reading.Fits spent n) :
    Proceeds I spent s (entryRound d entries) (Marches (Past s) s) := by
  unfold entryRound
  refine .bind_nextIsPunct fun b hb => .ite (fun hclose => ?_) fun _ => ?_
  · have hne : s.reading.next.kind ≠ .eof := by simp [hb.1 hclose]
    exact (proceeds_take hne true).bind fun _ t ht => .pure ht
  · refine proceeds_jsonKey.bind fun key t ht => ?_
    refine .bind_nextIsPunct fun _ _ => .check (proceeds_failAfterCurr _) fun _ => ?_
    refine (proceeds_advance true).bind fun _ u hu => ?_
    have hpast : s.reading.Passes u.reading := ht.on (.inr hu)
    refine (proceeds_expression hd hu.sharp (hw.reaches hpast.reaches)).bind fun v w hv => ?_
    exact proceeds_separator _ _ fun _ x hx => .pure (hpast.on (hv.reaches.trans hx))

theorem proceeds_jsonLiteral (hne : s.reading.next.kind ≠ .eof)
    (hw : s.reading.Fits spent (n + 1)) : Proceeds I spent s (jsonLiteral d) (Past s) := by
  rw [jsonLiteral_eq]
  refine (proceeds_take hne true).bind fun _ t ht => ?_
  refine (proceeds_repeatTokens (Q := Past) ht.sharp (fun _ _ _ h => h.passes ht.sharp)
    (fun entries u _ htu => ?_) _).bind fun entries u hu => ?_
  · exact proceeds_entryRound hd entries ((hw.passes ht).reaches htu)
  · refine (proceeds_withSpared hd.upheld (.of_containers rfl)).bind fun _ v hv => .pure ?_
    exact ht.on (hu.reaches.trans (.of_eq hv))

theorem proceeds_readPath (v : Value) (hs : s.reading.Sharp) (hw : s.reading.Fits spent n) :
    Proceeds I spent s (followPath d (.value v) >>= read) (Onward s) :=
  (proceeds_followPath hd _ hs hw).bind fun _ _ ht =>
    (proceeds_read _).mono fun _ _ hu => ht.trans (.of_eq hu)

theorem proceeds_anonymousTail (v : Value) (hw : s.reading.Fits spent n) :
    Proceeds I spent s (anonymousTail d v) (Onward s) := by
  unfold anonymousTail
  refine (proceeds_advance true).bind fun _ t ht => ?_
  exact (proceeds_readPath hd v ht.sharp (hw.reaches (.inr ht))).mono fun _ _ hu => .trans (.inr ht) hu

/-- A term takes its tokens, and what is nested in it stands behind the first of them. -/
theorem proceeds_term (hw : s.reading.Fits spent (n + 1)) :
    Proceeds I spent s (term d) (Past s) := by
  unfold term
  refine .bind_next ?_
  split <;> try rename_i hkind; have hne : s.reading.next.kind ≠ .eof := by simp [hkind]
  · exact (proceeds_stringLiteral hne).bind fun _ _ ht => .pure ht
  · exact (proceeds_stringLiteral hne).bind fun _ _ ht => .pure ht
  · refine (proceeds_take hne true).bind fun _ t ht => .bind_curr ?_
    split
    · exact .pure ht
    · exact proceeds_raise _
  · exact (proceeds_take hne true).bind fun _ _ ht => .pure ht
  · exact (proceeds_take hne true).bind fun _ _ ht => .pure ht
  · exact (proceeds_take hne true).bind fun _ _ ht => .pure ht
  · exact proceeds_listLiteral hd hne hw
  · exact proceeds_jsonLiteral hd hne hw
  · refine (proceeds_classDefinition hd false hne hw).bind fun v t ht => ?_
    exact (proceeds_anonymousTail hd v (hw.passes ht.1)).mono fun _ _ hu => ht.1.on hu
  · refine (proceeds_funcDefinition hd false hne hw).bind fun v t ht => ?_
    exact (proceeds_anonymousTail hd v (hw.passes ht.1)).mono fun _ _ hu => ht.1.on hu
  · refine (proceeds_take hne true).bind fun _ t ht => ?_
    have hw₁ := hw.passes ht
    refine (hd.term t ht.sharp hw₁).bind fun path u hu => ?_
    refine (proceeds_loadImport hd path _).bind fun dit v hv => ?_
    have hv : u.reading.Reaches v.reading := .of_eq hv
    have hw₂ := hw₁.reaches (hu.reaches.trans hv)
    refine (proceeds_readPath hd _ (hv.sharp hu.sharp) hw₂).mono fun _ _ hw => ?_
    exact ht.on (hu.reaches.trans (hv.trans hw))
  · exact proceeds_readOperand hd hne hw
  · exact proceeds_undeclared _
  · exact proceeds_malformedAt _ _

end

end Eval
end Ditlang
