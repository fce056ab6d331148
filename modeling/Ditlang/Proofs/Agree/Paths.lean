import Ditlang.Proofs.Agree.Calls
import Ditlang.Proofs.Eval.Paths

/-!
# Ditlang.Proofs.Agree.Paths

Following paths and taking expressions does the same in two runs side by side, as long as the
evaluator one level deeper does. What is kept from an earlier token is only where it stood, or was
ahead when it was compared (`advance_bind_curr`).
-/

namespace Ditlang
namespace Eval

open Source (Location View)

variable {p : Pairing} {h : Heap} {d : Deeper}

/-! ## Expressions -/

theorem agrees_add (a b : Value) : Agrees p h (add a b) (add a b) fun h' v => v.Valid h' := by
  unfold add
  split
  · exact .done trivial
  · exact .done trivial
  · refine .bind_heap fun k hk => ?_
    rw [← hk.eq (f := (·.valueLabel)) fun h => funext (h.valueLabel_unplaced p.main)]
    exact agrees_reading.bind_same fun _ _ _ _ => agrees_raise rfl

theorem agrees_continueExpression (hd : d.Agrees) {v : Value} (hv : v.Valid h) :
    Agrees p h (continueExpression d v) (continueExpression d v) fun h' v => v.Valid h' := by
  unfold continueExpression
  refine agrees_repeatTokens (I := fun h' v => v.Valid h') ?_ hv
  intro h' v _ hv
  refine (agrees_nextIsPunct _).bind_kept ?_
  rintro b - rfl
  refine .ite (fun _ => ?_) fun _ => .done hv
  refine (agrees_advance true).bind_kept fun _ _ _ => ?_
  refine (hd.term p h').bind ?_
  rintro h'' w _ - - rfl
  refine (agrees_add _ _).bind ?_
  rintro _ sum _ - hsum rfl
  exact .done hsum

theorem agrees_expression (hd : d.Agrees) :
    Agrees p h (expression d) (expression d) fun h' v => v.Valid h' := by
  refine (hd.term p h).bind ?_
  rintro h' v _ - hv rfl
  exact agrees_continueExpression hd hv

/-- After an element of a sequence: a comma, or the closing token ahead. -/
theorem agrees_separator {β : Type} [Likeness β] (close : Punct) (message : String)
    {k : Unit → Eval β} {R : Heap → β → Prop} (hk : ∀ u, Agrees p h (k u) (k u) R) :
    Agrees p h
      (nextIsPunct .comma >>= fun comma =>
        if comma = true then advance true >>= k
        else nextIsPunct close >>= fun closes =>
          if (!closes) = true then failAfterCurr message >>= k else k ())
      (nextIsPunct .comma >>= fun comma =>
        if comma = true then advance true >>= k
        else nextIsPunct close >>= fun closes =>
          if (!closes) = true then failAfterCurr message >>= k else k ()) R := by
  refine (agrees_nextIsPunct _).bind_kept ?_
  rintro comma - rfl
  refine .ite (fun _ => (agrees_advance true).bind_kept fun u _ _ => hk u) fun _ => ?_
  refine (agrees_nextIsPunct _).bind_kept ?_
  rintro closes - rfl
  exact .when (agrees_failAfterCurr message) hk

theorem agrees_expressionsUntil (hd : d.Agrees) (close : Punct) (message : String) :
    Agrees p h (expressionsUntil d close message) (expressionsUntil d close message)
      fun h' vs => ∀ v ∈ vs, v.Valid h' := by
  unfold expressionsUntil
  refine agrees_repeatTokens (I := fun h' vs => ∀ v ∈ vs, v.Valid h') ?_ (fun _ hv => nomatch hv)
  intro h' vs _ hvs
  refine (agrees_nextIsPunct _).bind_kept ?_
  rintro b - rfl
  refine .ite (fun _ => ?_) fun _ => ?_
  · refine (agrees_advance true).bind_kept fun _ _ _ => .done ?_
    exact fun v hv => hvs v (List.mem_reverse.1 hv)
  · refine (agrees_expression hd).bind ?_
    rintro h'' v _ hh'' hv rfl
    have hall : ∀ w ∈ v :: vs, w.Valid h'' := by
      intro w hw
      rcases List.mem_cons.1 hw with rfl | hw
      · exact hv
      · exact (hvs w hw).mono hh''.grows
    exact agrees_separator _ _ fun _ => .done hall

theorem agrees_arguments (hd : d.Agrees) :
    Agrees p h (arguments d) (arguments d) fun h' vs => ∀ v ∈ vs, v.Valid h' := by
  unfold arguments
  exact (agrees_advance true).bind_kept fun _ _ _ => agrees_expressionsUntil hd _ _

/-! ## Paths -/

/-- Looking a member up, once the class it may come from is interpreted. -/
theorem agrees_lookup {base : Value} (hb : base.Valid h) {qualifier : Option ContainerId}
    (hq : h.QualifierValid qualifier) (name : String) (loc loc' : Location) :
    Agrees p h
      (do
        setHeap ((← heap).warmMember base qualifier name)
        match ← ofHeapAt loc ((← heap).member base qualifier name) with
        | .slot s => (pure (.slot s) : Eval Operand)
        | other => pure (.member other))
      (do
        setHeap ((← heap).warmMember base qualifier name)
        match ← ofHeapAt loc' ((← heap).member base qualifier name) with
        | .slot s => (pure (.slot s) : Eval Operand)
        | other => pure (.member other)) fun h' o => o.Valid h' := by
  refine .of_reachable fun hr => .bind_heap fun k hk => ?_
  have hwarm : h.Steps (h.warmMember base qualifier name) := by
    rw [Heap.warmMember_eq]
    exact (Heap.asks_memberAsks hr.closed hb hq name).steps
  have hsame := hk.map (f := (·.warmMember base qualifier name)) (g := (·.unplaced p.main))
    fun h => h.warmMember_unplaced p.main base qualifier name
  refine (agrees_setHeap hwarm hsame).bind ?_
  rintro _ _ _ - rfl -
  refine .bind_heap fun k hk => ?_
  rw [← hk.eq (f := (·.member base qualifier name))
    fun h => h.member_unplaced p.main base qualifier name]
  refine (agrees_ofHeapAt loc loc' _).bind_same ?_
  rintro m _ hm rfl
  have hv := Heap.valid_member (hr.steps hwarm) (hb.mono hwarm.grows)
    (fun c hc => (hq c hc).mono hwarm.grows) hm
  split
  · exact .done hv
  · exact .done hv

theorem agrees_containerMember (hd : d.Agrees) {base : Value} (hb : base.Valid h)
    {qualifier : Option ContainerId} (hq : h.QualifierValid qualifier) (name : String) :
    Agrees p h (containerMember d base qualifier name) (containerMember d base qualifier name)
      fun h' o => o.Valid h' := by
  unfold containerMember
  refine .of_reachable fun hr => .bind_curr fun t u _ => .bind_heap fun k hk => ?_
  rw [← hk.eq (f := (·.classOfValue? base)) fun h => h.classOfValue?_unplaced p.main base]
  dsimp only
  split
  · rename_i c hc
    have hcls : h.IsKind .cls c := isKind_memberClass hr.closed hb hq hc
    refine (agrees_framed (agrees_ensureReady hd (hcls.not_isKind (by simp)))).bind
      fun h' _ _ hh' _ _ => ?_
    exact agrees_lookup (hb.mono hh'.grows) (fun c hc => (hq c hc).mono hh'.grows) _ _ _
  · exact agrees_lookup hb hq _ _ _

theorem agrees_memberName : Agrees p h memberName memberName fun h' _ => h' = h := by
  unfold memberName
  refine (agrees_advance false).bind_kept fun _ _ _ => ?_
  refine (agrees_nextIs _).bind_kept ?_
  rintro b - rfl
  refine .ite (fun _ => ?_) fun _ => agrees_failAtNext _
  rw [advance_bind_curr]
  refine agrees_next.bind_same fun t u _ htu => ?_
  rw [htu.word]
  exact (agrees_advance true).bind_kept fun _ _ _ => .done rfl

theorem agrees_memberStep (hd : d.Agrees) {o : Operand} (ho : o.Valid h) :
    Agrees p h (memberStep d o) (memberStep d o) fun h' o => o.Valid h' := by
  unfold memberStep
  refine agrees_memberName.bind_kept ?_
  rintro name - rfl
  split
  · exact .done ho
  · refine agrees_containerMember hd ho.1 ?_ name
    rintro _ ⟨⟩
    exact ho.2
  · refine (agrees_read ho).bind_same ?_
    rintro v _ hv rfl
    split
    · exact .done hv
    · refine .bind_heap fun k hk => ?_
      rw [← hk.eq (f := (·.growsJson)) fun _ => rfl]
      refine .ite (fun _ => .done ho) fun _ => ?_
      have hnull : Value.null.Valid h := trivial
      exact agrees_containerMember hd hnull qualifierValid_none name
    · exact agrees_containerMember hd hv qualifierValid_none name

theorem agrees_callStep (hd : d.Agrees) {o : Operand} (ho : o.Valid h) :
    Agrees p h (callStep d o) (callStep d o) fun h' v => v.Valid h' := by
  unfold callStep
  refine (agrees_read ho).bind_same ?_
  rintro callee _ hcallee rfl
  refine agrees_next.bind_same fun t u _ _ => ?_
  refine (agrees_arguments hd).bind ?_
  rintro h₁ args _ hh₁ hargs rfl
  split
  · refine .bind_heap fun k hk => ?_
    rw [← hk.eq (f := (·.nameOf)) fun h => funext (h.nameOf_unplaced p.main)]
    exact agrees_framed (agrees_callFunction hd _ hargs)
  · rename_i c
    refine .ite (fun _ => ?_) fun _ => agrees_malformedAt _ _ _
    have hcls : h₁.IsKind .cls c := Heap.IsKind.mono hh₁.grows hcallee
    refine (agrees_framed (agrees_ensureReady hd (hcls.not_isKind (by simp)))).bind
      fun h₂ _ _ hh₂ _ _ => ?_
    have hc : h₂.IsKind .cls c := hcls.mono hh₂.grows
    have hstep : h₂.Step (h₂.newInstance c).2 :=
      .alloc ⟨rfl, rfl, fun _ hk => nomatch hk⟩ hc fun _ ho => nomatch ho
    refine (agrees_withHeap (.single hstep) fun h => h.newInstance_unplaced p.main c).bind ?_
    rintro _ i _ - ⟨rfl, rfl⟩ rfl
    exact .done (Heap.isKind_alloc rfl)
  · exact agrees_malformedAt _ _ _

theorem agrees_followPath (hd : d.Agrees) {o : Operand} (ho : o.Valid h) :
    Agrees p h (followPath d o) (followPath d o) fun h' o => o.Valid h' := by
  unfold followPath
  refine agrees_repeatTokens (I := fun h' o => o.Valid h') ?_ ho
  intro h' o _ ho
  refine agrees_next.bind_same fun t u _ htu => ?_
  rw [← htu.kind]
  split
  · refine (agrees_memberStep hd ho).bind ?_
    rintro h'' o' _ - ho' rfl
    exact .done ho'
  · refine (agrees_callStep hd ho).bind ?_
    rintro h'' v _ - hv rfl
    exact .done hv
  · exact .done ho

theorem agrees_operand (hd : d.Agrees) :
    Agrees p h (operand d) (operand d) fun h' o => o.Valid h' := by
  unfold operand
  rw [advance_bind_curr]
  refine agrees_next.bind_same fun t u ht htu => ?_
  refine (agrees_advance true).bind_kept fun _ _ _ => ?_
  rw [← htu.slot?]
  split
  · rename_i s hs
    exact agrees_followPath hd (ht s hs)
  · exact agrees_raise rfl

theorem agrees_readOperand (hd : d.Agrees) :
    Agrees p h (operand d >>= read) (operand d >>= read) fun h' v => v.Valid h' := by
  refine (agrees_operand hd).bind ?_
  rintro h' o _ - ho rfl
  refine (agrees_read ho).mono ?_
  rintro _ v - ⟨rfl, hv⟩
  exact hv

theorem agrees_loadImport (hd : d.Agrees) (path : Value) (loc loc' : Location) :
    Agrees p h (loadImport d path loc) (loadImport d path loc')
      fun h' dit => h'.IsKind .dit dit := by
  unfold loadImport
  split
  · refine agrees_reading.bind_same fun r q _ hrq => ?_
    rw [← hrq.path]
    exact agrees_framed (agrees_importDit hd _ _)
  · exact agrees_malformedAt _ _ _

end Eval
end Ditlang
