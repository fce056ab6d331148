import Ditlang.Eval.Statements
import Ditlang.Proofs.Eval.Calls

/-!
# Ditlang.Proofs.Eval.Paths

Taking expressions and following paths obeys the laws, as long as the evaluator one level deeper does.
Each lemma says of one rule what it yields: valid values, and operands that are there and can be written
(`Operand.Led`). A path starts at a word that was seen to name something, so that there is a slot.
-/

namespace Ditlang
namespace Eval

open Source (Location View)

variable {L : Law} {h : Heap} {d : Deeper}

/-! ## Expressions -/

theorem obeys_add (x y : Value) : Obeys L h (add x y) fun h' v => v.Valid h' := by
  unfold add
  split
  · exact .pure trivial
  · exact .pure trivial
  · refine .bind_heap (obeys_reading.bind_same fun r hr => obeys_raise ?_)
    exact (Diagnostic.raisable_typeMismatch _).at_ hr.2

theorem obeys_continueExpression (hd : d.Obeys L) {v : Value} (hv : v.Valid h) :
    Obeys L h (continueExpression d v) fun h' v => v.Valid h' := by
  unfold continueExpression
  refine obeys_repeatTokens (I := fun h' v => v.Valid h') ?_ hv
  intro h' v _ hv
  refine (obeys_nextIsPunct _).bind_kept fun b => ?_
  refine .ite (fun _ => ?_) fun _ => .pure hv
  refine (obeys_advance true).bind_kept fun _ => ?_
  refine (hd.term h').bind fun _ w _ _ => ?_
  exact (obeys_add _ _).bind fun _ _ _ hsum => .pure hsum

theorem obeys_expression (hd : d.Obeys L) : Obeys L h (expression d) fun h' v => v.Valid h' :=
  (hd.term h).bind fun _ _ _ hv => obeys_continueExpression hd hv

/-- After an element of a sequence: a comma, or the closing token ahead. -/
theorem obeys_separator {β : Type} (close : Punct) (message : String) {k : Unit → Eval β}
    {R : Heap → β → Prop} (hk : ∀ u, Obeys L h (k u) R) :
    Obeys L h (nextIsPunct .comma >>= fun comma =>
      if comma = true then advance true >>= k
      else nextIsPunct close >>= fun closes =>
        if (!closes) = true then failAfterCurr message >>= k else k ()) R := by
  refine (obeys_nextIsPunct _).bind_kept fun comma => ?_
  refine .ite (fun _ => (obeys_advance true).bind_kept hk) fun _ => ?_
  refine (obeys_nextIsPunct _).bind_kept fun closes => ?_
  exact .when (obeys_failAfterCurr message) hk

theorem obeys_expressionsUntil (hd : d.Obeys L) (close : Punct) (message : String) :
    Obeys L h (expressionsUntil d close message) fun h' vs => ∀ v ∈ vs, v.Valid h' := by
  unfold expressionsUntil
  refine obeys_repeatTokens (I := fun h' vs => ∀ v ∈ vs, v.Valid h') ?_ (fun _ hv => nomatch hv)
  intro h' vs _ hvs
  refine (obeys_nextIsPunct _).bind_kept fun b => ?_
  refine .ite (fun _ => ?_) fun _ => ?_
  · refine (obeys_advance true).bind_kept fun _ => .pure ?_
    exact fun v hv => hvs v (List.mem_reverse.1 hv)
  · refine (obeys_expression hd).bind fun h'' v hh'' hv => ?_
    have hall : ∀ w ∈ v :: vs, w.Valid h'' := by
      intro w hw
      rcases List.mem_cons.1 hw with rfl | hw
      · exact hv
      · exact (hvs w hw).mono hh''.grows
    exact obeys_separator _ _ fun _ => .pure hall

theorem obeys_arguments (hd : d.Obeys L) :
    Obeys L h (arguments d) fun h' vs => ∀ v ∈ vs, v.Valid h' := by
  unfold arguments
  exact (obeys_advance true).bind_kept fun _ => obeys_expressionsUntil hd _ _

/-! ## Paths -/

/-- Looking a member up, once the class it may come from is interpreted. -/
theorem obeys_lookup {base : Value} (hb : base.Valid h) {qualifier : Option ContainerId}
    (hq : h.QualifierValid qualifier) (name : String) {loc : Location} (hloc : L.place loc) :
    Obeys L h (do
      setHeap ((← heap).warmMember base qualifier name)
      match ← ofHeapAt loc ((← heap).member base qualifier name) with
      | .slot s => (pure (.slot s) : Eval Operand)
      | other => pure (.member other)) fun h' o => o.Valid h' ∧ o.Led := by
  refine .of_reachable fun hr => .bind_heap ?_
  rw [Heap.warmMember_eq]
  have hwarm := (Heap.asks_memberAsks hr.closed hb hq name).steps
  refine (obeys_setHeap hwarm (Heap.edits_warmAll _)).bind ?_
  rintro _ _ - rfl
  have hb' := hb.mono hwarm.grows
  refine .bind_heap ((obeys_ofHeapAt hloc fun _ => Heap.ordinary_member hb').bind_same fun m hm => ?_)
  have hv := Heap.valid_member (hr.steps hwarm) hb' (fun c hc => (hq c hc).mono hwarm.grows) hm
  split
  · exact .pure ⟨hv, trivial⟩
  · exact .pure ⟨hv, trivial⟩

/-- What is interpreted before a member is looked up is a class. -/
theorem isKind_memberClass (hc : h.Closed) {base : Value} (hb : base.Valid h)
    {qualifier : Option ContainerId} (hq : h.QualifierValid qualifier) {c : ContainerId}
    (hcls : qualifier.or (h.classOfValue? base) = some c) : h.IsKind .cls c := by
  rcases Option.or_eq_some_iff.1 hcls with hqual | ⟨-, hval⟩
  · exact hq c hqual
  · unfold Heap.classOfValue? at hval
    split at hval
    · cases hval
      exact hb
    · exact Heap.isKind_classOf? hc hval
    · cases hval

theorem obeys_containerMember (hd : d.Obeys L) {base : Value} (hb : base.Valid h)
    {qualifier : Option ContainerId} (hq : h.QualifierValid qualifier) (name : String) :
    Obeys L h (containerMember d base qualifier name) fun h' o => o.Valid h' ∧ o.Led := by
  unfold containerMember
  refine .of_reachable fun hr => obeys_curr.bind_same fun t ht => .bind_heap ?_
  dsimp only
  split
  · rename_i c hc
    have hcls := isKind_memberClass hr.closed hb hq hc
    refine (obeys_framed (obeys_classReady hd hcls)).bind fun h' _ hh' _ => ?_
    exact obeys_lookup (hb.mono hh'.grows) (fun c hc => (hq c hc).mono hh'.grows) _ ht.loc
  · exact obeys_lookup hb hq _ ht.loc

theorem obeys_memberName : Obeys L h memberName fun h' _ => h' = h := by
  unfold memberName
  refine (obeys_advance false).bind_kept fun _ => ?_
  refine (obeys_nextIs _).bind_kept fun b => ?_
  refine .ite (fun _ => ?_) fun _ => obeys_failAtNext _
  refine (obeys_advance true).bind_kept fun _ => ?_
  exact obeys_curr.bind_same fun _ _ => .pure rfl

theorem qualifierValid_none : h.QualifierValid none := fun _ hc => nomatch hc

theorem obeys_memberStep (hd : d.Obeys L) {o : Operand} (ho : o.Valid h) :
    Obeys L h (memberStep d o) fun h' o => o.Valid h' ∧ o.Led := by
  unfold memberStep
  refine obeys_memberName.bind_kept fun name => ?_
  split
  · exact .pure ⟨ho, by simp [Operand.Led]⟩
  · refine obeys_containerMember hd ho.1 ?_ name
    rintro _ ⟨⟩
    exact ho.2
  · refine (obeys_read ho).bind_same fun v hv => ?_
    split
    · exact .pure ⟨hv, by simp [Operand.Led]⟩
    · refine .bind_heap (.ite (fun _ => .pure ⟨ho, by simp [Operand.Led]⟩) fun _ => ?_)
      have hnull : Value.null.Valid h := trivial
      exact obeys_containerMember hd hnull qualifierValid_none name
    · exact obeys_containerMember hd hv qualifierValid_none name

theorem obeys_callStep (hd : d.Obeys L) {o : Operand} (ho : o.Valid h) :
    Obeys L h (callStep d o) fun h' v => v.Valid h' := by
  unfold callStep
  refine (obeys_read ho).bind_same fun callee hcallee => ?_
  refine obeys_next.bind_same fun t ht => ?_
  refine (obeys_arguments hd).bind fun h₁ args hh₁ hargs => ?_
  split
  · rename_i f
    have hf : h₁.IsKind .func f := Heap.IsKind.mono hh₁.grows hcallee
    exact .bind_heap (obeys_framed (obeys_callFunction hd (.inr hf) hargs))
  · rename_i c
    refine .ite (fun _ => ?_) fun _ => obeys_malformedAt _ ht.loc
    have hc₁ : h₁.IsKind .cls c := Heap.IsKind.mono hh₁.grows hcallee
    refine (obeys_framed (obeys_classReady hd hc₁)).bind fun h₂ _ hh₂ _ => ?_
    have hc : h₂.IsKind .cls c := hc₁.mono hh₂.grows
    have hstep : h₂.Step (h₂.newInstance c).2 :=
      .alloc ⟨rfl, rfl, fun _ hk => nomatch hk⟩ hc fun _ ho => nomatch ho
    refine (obeys_withHeap (.single hstep) (Heap.edits_newInstance c)).bind ?_
    rintro _ i - ⟨rfl, rfl⟩
    exact .pure (Heap.isKind_alloc rfl)
  · exact obeys_malformedAt _ ht.loc

theorem obeys_followPath (hd : d.Obeys L) {o : Operand} (ho : o.Valid h) (hled : o.Led) :
    Obeys L h (followPath d o) fun h' o => o.Valid h' ∧ o.Led := by
  unfold followPath
  refine obeys_repeatTokens (I := fun h' o => o.Valid h' ∧ o.Led) ?_ ⟨ho, hled⟩
  intro h' o _ ho
  refine obeys_next.bind_same fun t _ => ?_
  split
  · exact (obeys_memberStep hd ho.1).bind fun _ _ _ ho' => .pure ho'
  · exact (obeys_callStep hd ho.1).bind fun _ _ _ hv => .pure ⟨hv, trivial⟩
  · exact .pure ho

theorem obeys_operand (hd : d.Obeys L) {t : Token} (ht : L.Ahead h t) {k : ValueKind}
    (hk : t.kind = .value k) : ObeysAt L h t (operand d) fun h' o => o.Valid h' ∧ o.Led := by
  unfold operand
  refine ObeysAt.take ?_
  split
  · rename_i s hs
    exact obeys_followPath hd (ht.valid s hs) trivial
  · rename_i hnone
    have hordinary : L.Raisable (Diagnostic.critical "Resolved token without a slot") := by
      refine ⟨rfl, nofun, ht.laden.imp_right fun hladen => ?_⟩
      have hsome := hladen.value k hk
      rw [hnone] at hsome
      cases hsome
    exact obeys_raise (hordinary.at_ ht.loc)

theorem obeys_readOperand (hd : d.Obeys L) {t : Token} (ht : L.Ahead h t) {k : ValueKind}
    (hk : t.kind = .value k) : ObeysAt L h t (operand d >>= read) fun h' v => v.Valid h' := by
  refine (obeys_operand hd ht hk).bind fun h' o _ ho => (obeys_read ho.1).mono ?_
  rintro _ v - ⟨rfl, hv⟩
  exact hv

theorem obeys_loadImport (hd : d.Obeys L) (path : Value) {loc : Location} (hloc : L.place loc) :
    Obeys L h (loadImport d path loc) fun h' dit => h'.IsKind .dit dit := by
  unfold loadImport
  split
  · exact obeys_reading.bind_same fun r _ => obeys_framed (obeys_importDit hd _ _)
  · exact obeys_malformedAt _ hloc

end Eval
end Ditlang
