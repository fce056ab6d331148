import Ditlang.Proofs.Eval.Definitions

/-!
# Ditlang.Proofs.Eval.Statements

Terms and statements obey the laws, as long as the evaluator one level deeper does.
-/

namespace Ditlang
namespace Eval

open Source (Location)

variable {L : Law} {h : Heap} {d : Deeper}

/-! ## Terms -/

theorem obeys_listLiteral (hd : d.Obeys L) :
    Obeys L h (listLiteral d) fun h' v => v.Valid h' := by
  unfold listLiteral
  refine (obeys_advance true).bind_kept fun _ => ?_
  refine (obeys_expressionsUntil hd _ _).bind fun h' items _ hitems => ?_
  refine (obeys_withHeap (.single (.newList hitems)) (.single (.other rfl))).bind ?_
  rintro _ l - ⟨rfl, rfl⟩
  refine .pure ?_
  simp [Value.Valid, Heap.newList]

theorem obeys_jsonKey : Obeys L h jsonKey fun h' _ => h' = h := by
  unfold jsonKey
  refine obeys_next.bind_same fun t ht => ?_
  split
  · exact obeys_stringLiteral
  · exact obeys_stringLiteral
  · split
    · exact (obeys_advance true).bind_kept fun _ => .pure rfl
    · exact obeys_malformedAt _ ht.loc

theorem obeys_jsonLiteral (hd : d.Obeys L) :
    Obeys L h (jsonLiteral d) fun h' v => v.Valid h' := by
  unfold jsonLiteral
  refine (obeys_advance true).bind_kept fun _ => ?_
  refine Obeys.bind (P := fun h' (m : OrderedMap Value) => m.All (Value.Valid h')) ?_ ?_
  · refine obeys_repeatTokens (I := fun h' (m : OrderedMap Value) => m.All (Value.Valid h')) ?_
      (.empty _)
    intro h' entries _ hentries
    refine (obeys_nextIsPunct _).bind_kept fun b => ?_
    refine .ite (fun _ => ?_) fun _ => ?_
    · exact (obeys_advance true).bind_kept fun _ => .pure hentries
    · refine obeys_jsonKey.bind_kept fun key => ?_
      refine (obeys_nextIsPunct _).bind_kept fun colon => ?_
      refine .when (obeys_failAfterCurr _) fun _ => ?_
      refine (obeys_advance true).bind_kept fun _ => ?_
      refine (obeys_expression hd).bind fun h'' v hh'' hv => ?_
      refine obeys_separator _ _ fun _ => .pure ?_
      exact (hentries.imp fun _ => .mono hh''.grows).insert key hv
  · intro h' entries _ hentries
    exact (obeys_newMap hentries).bind fun _ _ _ hm => .pure hm

theorem obeys_readPath (hd : d.Obeys L) {v : Value} (hv : v.Valid h) :
    Obeys L h (followPath d (.value v) >>= read) fun h' v => v.Valid h' := by
  have hvalue : (Operand.value v).Valid h := hv
  refine (obeys_followPath hd hvalue trivial).bind fun h' o _ ho => (obeys_read ho.1).mono ?_
  rintro _ v - ⟨rfl, hv⟩
  exact hv

theorem obeys_anonymousTail (hd : d.Obeys L) {v : Value} (hv : v.Valid h) :
    Obeys L h (anonymousTail d v) fun h' v => v.Valid h' := by
  unfold anonymousTail
  exact (obeys_advance true).bind_kept fun _ => obeys_readPath hd hv

theorem obeys_term (hd : d.Obeys L) : Obeys L h (term d) fun h' v => v.Valid h' := by
  unfold term
  refine .bind_next fun t ht => ?_
  split
  · exact (obeys_stringLiteral.bind_kept fun _ => .pure trivial).at
  · exact (obeys_stringLiteral.bind_kept fun _ => .pure trivial).at
  · rename_i hk
    refine ObeysAt.take ?_
    split
    · exact .pure trivial
    · rename_i hnone
      refine obeys_raise ⟨rfl, nofun, ht.laden.imp_right fun hladen => ?_⟩
      obtain ⟨x, hx⟩ := hladen.number hk
      exact absurd hx (hnone x)
  · exact ((obeys_advance true).bind_kept fun _ => .pure trivial).at
  · exact ((obeys_advance true).bind_kept fun _ => .pure trivial).at
  · exact ((obeys_advance true).bind_kept fun _ => .pure trivial).at
  · exact (obeys_listLiteral hd).at
  · exact (obeys_jsonLiteral hd).at
  · exact ((obeys_classDefinition hd false).bind fun _ _ _ hv => obeys_anonymousTail hd hv).at
  · exact ((obeys_funcDefinition hd false).bind fun _ _ _ hv => obeys_anonymousTail hd hv).at
  · refine Obeys.at ((obeys_advance true).bind_kept fun _ => ?_)
    refine (hd.term h).bind fun _ path _ _ => ?_
    refine (obeys_loadImport hd path ht.loc).bind fun h' dit _ hdit => ?_
    have hv : (Value.ditRef dit).Valid h' := hdit
    exact obeys_readPath hd hv
  · rename_i k hk
    exact obeys_readOperand hd ht hk
  · exact (obeys_undeclared ht.toMarks).at
  · exact (obeys_malformedAt _ ht.loc).at

/-! ## Declarations and assignments -/

theorem obeys_declarationOwner (base : Value) (word : String) {loc : Location}
    (hloc : L.place loc) : Obeys L h (declarationOwner base word loc) fun h' _ => h' = h := by
  unfold declarationOwner
  split
  · exact .pure rfl
  · exact obeys_malformedAt _ hloc

theorem obeys_declarationTarget (hd : d.Obeys L) :
    Obeys L h (declarationTarget d) fun _ _ => True := by
  unfold declarationTarget
  refine .bind_next fun t ht => Obeys.at ?_
  split
  · exact obeys_malformedAt _ ht.loc
  · refine (obeys_advance true).bind_kept fun _ => ?_
    refine (obeys_nextIsPunct _).bind_kept fun dot => ?_
    refine .ite (fun _ => ?_) fun _ => obeys_reading.bind_same fun _ _ => .pure trivial
    split
    · exact obeys_malformedAt _ ht.loc
    · rename_i s hs
      refine .of_reachable fun hr => .bind_heap ?_
      refine obeys_repeatTokens (I := fun h' (v : Value) => v.Valid h') ?_ (hr.closed.slot s).value
      intro h' base _ hbase
      refine obeys_memberName.bind_kept fun word => ?_
      refine (obeys_nextIsPunct _).bind_kept fun dot => ?_
      refine .ite (fun _ => ?_) fun _ => ?_
      · refine (obeys_containerMember hd hbase qualifierValid_none word).bind fun h'' o _ ho => ?_
        exact (obeys_read ho.1).bind_same fun v hv => .pure hv
      · refine obeys_curr.bind_same fun t' ht' => ?_
        exact (obeys_declarationOwner _ _ ht'.loc).bind_kept fun _ => .pure trivial

theorem obeys_end : Obeys L h expectTerminal fun _ _ => True :=
  obeys_expectTerminal.mono fun _ _ _ _ => trivial

theorem obeys_declarationRest (hd : d.Obeys L) {declared : Declared} (hdecl : declared.Valid h) :
    Obeys L h (declarationRest d declared) fun _ _ => True := by
  unfold declarationRest
  refine obeys_next.bind_same fun t ht => ?_
  refine (obeys_declarationTarget hd).bind ?_
  rintro h₁ ⟨owner, name⟩ hh₁ -
  refine (obeys_declareIn owner name (hdecl.mono hh₁.grows) ht.loc).bind fun h₂ s _ hs => ?_
  refine (obeys_nextIsPunct _).bind_kept fun b => ?_
  refine .ite (fun _ => ?_) fun _ => obeys_end
  refine (obeys_advance true).bind_kept fun _ => ?_
  refine (obeys_expression hd).bind fun h₃ v hh₃ hv => ?_
  exact (obeys_assignSlot (Heap.HasSlot.mono hh₃.grows hs) hv).bind fun _ _ _ _ => obeys_end

theorem obeys_keepValue {v : Value} (hv : v.Valid h) :
    Obeys L h (keepValue v) fun h' _ => h' = h := by
  rintro s hs rfl
  exact ⟨L.keepValue hs hv, .refl, L.refl _ _, rfl⟩

theorem obeys_valueStatement (hd : d.Obeys L) {t : Token} (ht : L.Ahead h t)
    {k : ValueKind} (hk : t.kind = .value k) :
    ObeysAt L h t (valueStatement d) fun _ _ => True := by
  unfold valueStatement
  refine (obeys_operand hd ht hk).bind ?_
  rintro h₁ o - ⟨ho, hled⟩
  refine obeys_next.bind_same fun _ _ => ?_
  refine Obeys.bind_ite (P := fun g cls => g = h₁ ∧ ∀ c, cls = some c → h₁.IsKind .cls c) ?_ ?_ ?_
  · refine (obeys_read ho).bind_same fun v hv => ?_
    split
    · refine .pure ⟨rfl, ?_⟩
      rintro _ ⟨⟩
      exact hv
    · exact .pure ⟨rfl, fun _ hc => nomatch hc⟩
  · exact .pure ⟨rfl, fun _ hc => nomatch hc⟩
  · rintro g cls - ⟨hg, hcls⟩
    subst g
    dsimp only
    split
    · rename_i c
      have hty : (Declared.scalar (.of c)).Valid h₁ := hcls c rfl
      exact obeys_declarationRest hd hty
    · refine (obeys_nextIsPunct _).bind_kept fun b => ?_
      refine .ite (fun _ => ?_) fun _ => ?_
      · refine (obeys_advance true).bind_kept fun _ => ?_
        refine (obeys_expression hd).bind fun h₂ v hh₂ hv => ?_
        exact (obeys_store (ho.mono hh₂.grows) (.inr hled) hv).bind fun _ _ _ _ => obeys_end
      · refine (obeys_read ho).bind_same fun v hv => ?_
        refine (obeys_continueExpression hd hv).bind fun h₂ w _ hw => ?_
        exact (obeys_keepValue hw).bind_kept fun _ => obeys_end

/-! ## Imports -/

theorem obeys_expose (dit : ContainerId) {loc : Location} (hloc : L.place loc) :
    Obeys L h (expose dit loc) fun _ _ => True := by
  unfold expose
  refine .of_reachable fun hr => obeys_reading.bind_same fun r _ => .bind_heap ?_
  refine (obeys_forIn (I := fun _ => True) _ ?_ trivial _).bind fun _ _ _ _ => .pure trivial
  rintro h₁ ⟨name, s⟩ - hh₁ hmem -
  have hs : h₁.HasSlot s := ((hr.closed.container dit).attrs _ hmem).mono hh₁.grows
  dsimp only
  refine .bind_heap ((obeys_ofHeapAt hloc fun _ => Heap.ordinary_insertAlias).bind_same
    fun h₂ hok => ?_)
  exact (obeys_setHeap (.single (.insertAlias hs hok)) (.single (.insertAlias hok))).bind
    fun _ _ _ _ => .pure ⟨trivial, _, rfl⟩

theorem obeys_importNames (hd : d.Obeys L) (path : Value) {loc : Location} (hloc : L.place loc) :
    Obeys L h (importNames d path loc) fun _ _ => True := by
  unfold importNames
  refine (obeys_loadImport hd path hloc).bind fun _ dit _ _ => ?_
  exact (obeys_expose dit hloc).bind fun _ _ _ _ => obeys_end

theorem obeys_importStatement (hd : d.Obeys L) : Obeys L h (importStatement d) fun _ _ => True := by
  unfold importStatement
  refine obeys_next.bind_same fun t₀ ht₀ => ?_
  refine (obeys_advance false).bind_kept fun _ => ?_
  refine obeys_next.bind_same fun t ht => ?_
  refine .ite (fun _ => ?_) fun _ => ?_
  · refine (obeys_advance true).bind_kept fun _ => ?_
    refine (obeys_nextIs _).bind_kept fun b => ?_
    refine .ite (fun _ => ?_) fun _ => ?_
    · refine (obeys_checkNewName _ _ ht₀.loc).bind_kept fun _ => ?_
      refine (obeys_advance true).bind_kept fun _ => ?_
      refine (obeys_expression hd).bind fun _ path _ _ => ?_
      refine (obeys_loadImport hd path ht₀.loc).bind fun h₁ dit _ hdit => ?_
      have hv : (Value.ditRef dit).Valid h₁ := hdit
      exact (obeys_bindName _ .dit trivial hv ht₀.loc).bind fun _ _ _ _ => obeys_end
    · refine .of_reachable fun hr => .bind_heap (obeys_reading.bind_same fun r _ => ?_)
      split
      · exact obeys_undeclared ht.toMarks
      · rename_i s hs
        have hslot : (Operand.slot s).Valid h := hr.closed.hasSlot_findWithin? hs
        refine (obeys_followPath hd hslot trivial).bind fun h₁ o _ ho => ?_
        refine (obeys_read ho.1).bind_same fun v hv => ?_
        refine (obeys_continueExpression hd hv).bind fun _ path _ _ => ?_
        exact obeys_importNames hd path ht₀.loc
  · exact (obeys_expression hd).bind fun _ path _ _ => obeys_importNames hd path ht₀.loc

/-! ## Statements -/

theorem obeys_canReturn : Obeys L h canReturn fun h' _ => h' = h := by
  unfold canReturn
  refine obeys_reading.bind_same fun r _ => .bind_heap ?_
  split
  · exact .pure rfl
  · exact .pure rfl

theorem obeys_returnStatement (hd : d.Obeys L) :
    Obeys L h (returnStatement d) fun h' signal => signal.Valid h' := by
  unfold returnStatement
  refine obeys_canReturn.bind_kept fun b => ?_
  refine .when (obeys_failAtNext _) fun _ => ?_
  refine (obeys_advance true).bind_kept fun _ => ?_
  refine obeys_reading.bind_same fun r _ => ?_
  refine Obeys.bind_ite (P := fun g (v : Value) => v.Valid g) (.pure trivial) (obeys_expression hd) ?_
  intro h' v _ hv
  exact obeys_expectTerminal.bind_kept fun _ => .pure hv

theorem obeys_throwStatement (hd : d.Obeys L) :
    Obeys L h (throwStatement d) fun h' signal => signal.Valid h' := by
  unfold throwStatement
  refine (obeys_advance true).bind_kept fun _ => ?_
  refine (obeys_expression hd).bind fun h' v _ hv => ?_
  exact obeys_expectTerminal.bind_kept fun _ => .pure hv

theorem obeys_expressionStatement (hd : d.Obeys L) :
    Obeys L h (expressionStatement d) fun _ _ => True := by
  unfold expressionStatement
  refine (obeys_expression hd).bind fun h' v _ hv => ?_
  exact (obeys_keepValue hv).bind_kept fun _ => obeys_end

theorem obeys_discard {α : Type} {x : Eval α} {P : Heap → α → Prop} (hx : Obeys L h x P) :
    Obeys L h (discard x) fun _ _ => True :=
  hx.bind fun _ _ _ _ => .pure trivial

theorem obeys_plainStatement (hd : d.Obeys L) {t : Token} (ht : L.Ahead h t) :
    ObeysAt L h t (plainStatement d t) fun _ _ => True := by
  have htyped : Obeys L h (parseType d >>= declarationRest d) fun _ _ => True :=
    (obeys_parseType hd).bind fun _ _ _ hty => obeys_declarationRest hd hty
  unfold plainStatement
  split
  · exact htyped.at
  · exact htyped.at
  · rename_i k hk
    exact obeys_valueStatement hd ht hk
  · exact (obeys_discard (obeys_classDefinition hd true)).at
  · exact (obeys_discard (obeys_funcDefinition hd true)).at
  · exact (obeys_langDefinition hd).at
  · exact (obeys_importStatement hd).at
  · exact (obeys_undeclared ht.toMarks).at
  · refine Obeys.at (obeys_reading.bind_same fun r _ => ?_)
    refine .ite (fun _ => obeys_expressionStatement hd) fun _ => ?_
    split
    · exact obeys_malformedAt _ ht.loc
    · exact obeys_malformedAt _ ht.loc

theorem obeys_statement (hd : d.Obeys L) :
    Obeys L h (statement d) fun h' signal => signal.Valid h' := by
  unfold statement
  refine .bind_next fun t ht => ?_
  split
  · exact (obeys_returnStatement hd).at
  · exact (obeys_throwStatement hd).at
  · exact (obeys_plainStatement hd ht).bind fun _ _ _ _ => .pure trivial

theorem obeys_statements (hd : d.Obeys L) :
    Obeys L h (statements d) fun h' signal => signal.Valid h' := by
  unfold statements
  refine obeys_repeatTokens (I := fun _ _ => True) ?_ trivial
  intro h' _ _ _
  refine (obeys_advance true).bind_kept fun _ => ?_
  refine obeys_next.bind_same fun t _ => ?_
  split
  · exact .pure trivial
  · exact .pure trivial
  · refine (obeys_statement hd).bind fun h'' signal _ hsignal => ?_
    split
    · exact .pure trivial
    · exact .pure hsignal

end Eval
end Ditlang
