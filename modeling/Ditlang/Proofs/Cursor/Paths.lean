import Ditlang.Eval.Terms
import Ditlang.Proofs.Cursor.Calls

/-!
# Ditlang.Proofs.Cursor.Paths

How expressions and paths go: each takes at least one token, and nests terms only behind one. The loops
among them are made of rounds, and a round takes a token or returns (`Marches`).
-/

namespace Ditlang
namespace Eval

open Source (Location)

/-! ## Rounds -/

def sumRound (d : Deeper) (v : Value) : Eval (Value ⊕ Value) := do
  if ← nextIsPunct .plus then
    advance true
    let w ← d.term
    return .inl (← add v w)
  else
    return .inr v

theorem continueExpression_eq (d : Deeper) (v : Value) :
    continueExpression d v = repeatTokens (sumRound d) v := rfl

def elementRound (d : Deeper) (close : Punct) (message : String) (values : List Value) :
    Eval (List Value ⊕ List Value) := do
  if ← nextIsPunct close then
    advance true
    return .inr values.reverse
  else
    let v ← expression d
    if ← nextIsPunct .comma then
      advance true
    else if !(← nextIsPunct close) then
      failAfterCurr message
    return .inl (v :: values)

theorem expressionsUntil_eq (d : Deeper) (close : Punct) (message : String) :
    expressionsUntil d close message = repeatTokens (elementRound d close message) [] := rfl

def pathRound (d : Deeper) [Calling d] (o : Operand) : Eval (Operand ⊕ Operand) := do
  match (← next).kind with
  | .punct .dot => return .inl (← memberStep d o)
  | .punct .parenLeft => return .inl (.value (← callStep d o))
  | _ => return .inr o

theorem followPath_eq (d : Deeper) [Calling d] (o : Operand) :
    followPath d o = repeatTokens (pathRound d) o := rfl

variable {α β : Type} {I : ContainerId → Heap → Prop} {spent : Prop} {s : EvalState} {d : Deeper}
  {n : Nat}

theorem proceeds_add (a b : Value) : Proceeds I spent s (add a b) (Still s) := by
  unfold add
  split
  · exact .pure rfl
  · exact .pure rfl
  · exact .bind_heap (.bind_reading (proceeds_raise _))

/-- After an element of a sequence: a comma, or the closing token ahead. -/
theorem proceeds_separator (close : Punct) (message : String) {k : Unit → Eval β}
    {R : β → EvalState → Prop}
    (hk : ∀ u t, s.reading.Reaches t.reading → Proceeds I spent t (k u) R) :
    Proceeds I spent s (nextIsPunct .comma >>= fun comma =>
      if comma = true then advance true >>= k
      else nextIsPunct close >>= fun closes =>
        if (!closes) = true then failAfterCurr message >>= k else k ()) R := by
  refine .bind_nextIsPunct fun _ _ => .ite (fun _ => ?_) fun _ => ?_
  · exact (proceeds_advance true).bind fun u t ht => hk u t (.inr ht)
  · refine .bind_nextIsPunct fun _ _ => .check (proceeds_failAfterCurr _) fun _ => ?_
    exact hk () s (.refl _)

section

variable [Calling d] (hd : d.Answering I spent n)

include hd

/-! ## Expressions -/

theorem proceeds_sumRound (v : Value) (hw : s.reading.Fits spent n) :
    Proceeds I spent s (sumRound d v) (Marches (Onward s) s) := by
  unfold sumRound
  refine .bind_nextIsPunct fun b hb => .ite (fun hplus => ?_) fun _ => .pure (.refl _)
  have hne : s.reading.next.kind ≠ .eof := by simp [hb.1 hplus]
  refine (proceeds_take hne true).bind fun _ t ht => ?_
  refine (hd.term t ht.sharp (hw.reaches ht.reaches)).bind fun w u hu => ?_
  refine (proceeds_add v w).bind fun x y hy => .pure ?_
  exact ht.on (hu.reaches.trans (.of_eq hy))

theorem proceeds_continueExpression (v : Value) (hs : s.reading.Sharp)
    (hw : s.reading.Fits spent n) : Proceeds I spent s (continueExpression d v) (Onward s) := by
  rw [continueExpression_eq]
  refine proceeds_repeatTokens (Q := Onward) hs (fun _ _ _ => .trans) (fun v t _ hst => ?_) v
  exact proceeds_sumRound hd v (hw.reaches hst)

theorem proceeds_expression (hs : s.reading.Sharp) (hw : s.reading.Fits spent n) :
    Proceeds I spent s (expression d) (Past s) := by
  refine (hd.term s hs hw).bind fun v t ht => ?_
  exact (proceeds_continueExpression hd v ht.sharp (hw.reaches ht.reaches)).mono
    fun _ _ hu => ht.on hu

theorem proceeds_elementRound {close : Punct} {message : String} (values : List Value)
    (hs : s.reading.Sharp) (hw : s.reading.Fits spent n) :
    Proceeds I spent s (elementRound d close message values) (Marches (Past s) s) := by
  unfold elementRound
  refine .bind_nextIsPunct fun b hb => .ite (fun hclose => ?_) fun _ => ?_
  · have hne : s.reading.next.kind ≠ .eof := by simp [hb.1 hclose]
    exact (proceeds_take hne true).bind fun _ t ht => .pure ht
  · refine (proceeds_expression hd hs hw).bind fun v t ht => ?_
    exact proceeds_separator _ _ fun _ u hu => .pure (ht.on hu)

theorem proceeds_expressionsUntil {close : Punct} {message : String} (hs : s.reading.Sharp)
    (hw : s.reading.Fits spent n) :
    Proceeds I spent s (expressionsUntil d close message) (Past s) := by
  rw [expressionsUntil_eq]
  refine proceeds_repeatTokens (Q := Past) hs (fun _ _ _ h => h.passes hs)
    (fun values t ht hst => ?_) _
  exact proceeds_elementRound hd values ht (hw.reaches hst)

theorem proceeds_arguments (hne : s.reading.next.kind ≠ .eof) (hw : s.reading.Fits spent n) :
    Proceeds I spent s (arguments d) (Past s) := by
  refine (proceeds_take hne true).bind fun _ t ht => ?_
  exact (proceeds_expressionsUntil hd ht.sharp (hw.reaches ht.reaches)).mono
    fun _ _ hu => ht.on hu.reaches

/-! ## Paths -/

theorem proceeds_lookup (base : Value) (qualifier : Option ContainerId) (name : String)
    (loc : Location) :
    Proceeds I spent s (do
      setHeap ((← heap).warmMember base qualifier name)
      match ← ofHeapAt loc ((← heap).member base qualifier name) with
      | .slot s => (pure (.slot s) : Eval Operand)
      | other => pure (.member other)) (Still s) := by
  refine .bind_heap ?_
  rw [Heap.warmMember_eq]
  refine (proceeds_setSpared hd.upheld (Heap.spares_warmAll _)).bind fun _ t ht => ?_
  refine .bind_heap (.bind_ofHeapAt fun m _ => ?_)
  split
  · exact .pure ht
  · exact .pure ht

theorem proceeds_containerMember (base : Value) (qualifier : Option ContainerId) (name : String) :
    Proceeds I spent s (containerMember d base qualifier name) (Still s) := by
  unfold containerMember
  refine .bind_curr (.bind_heap ?_)
  dsimp only
  split
  · refine (proceeds_framed (proceeds_ensureReady hd.toProceeding _)).bind fun _ t ht => ?_
    exact (proceeds_lookup hd _ _ _ _).mono fun _ _ hu => hu.trans ht
  · exact proceeds_lookup hd _ _ _ _

omit [Calling d] hd in
theorem proceeds_memberName (hs : s.reading.Sharp) : Proceeds I spent s memberName (Past s) := by
  unfold memberName
  refine (proceeds_advance false).bind fun _ t ht => ?_
  refine .bind_nextIs fun b hb => .ite (fun hword => ?_) fun _ => proceeds_failAtNext _
  -- A name can only be ahead if a dot was.
  have hne : t.reading.next.kind ≠ .eof := by simp [hb.1 hword]
  refine (proceeds_take hne true).bind fun _ u hu => .bind_curr (.pure ?_)
  exact (ht.passes hs hne).on hu.reaches

theorem proceeds_memberStep (o : Operand) (hs : s.reading.Sharp) :
    Proceeds I spent s (memberStep d o) (Past s) := by
  unfold memberStep
  refine (proceeds_memberName hs).bind fun name t ht => ?_
  have hmember (u : EvalState) (hu : u.reading = t.reading) (base : Value)
      (qualifier : Option ContainerId) :
      Proceeds I spent u (containerMember d base qualifier name) (Past s) :=
    (proceeds_containerMember hd _ _ _).mono fun _ _ hv => ht.on (.of_eq (hv.trans hu))
  split
  · exact .pure ht
  · exact hmember t rfl _ _
  · refine (proceeds_read _).bind fun v u hu => ?_
    have hpast : s.reading.Passes u.reading := ht.on (.of_eq hu)
    split
    · exact .pure hpast
    · exact .bind_heap (.ite (fun _ => .pure hpast) fun _ => hmember u hu _ _)
    · exact hmember u hu _ _

theorem proceeds_callStep (o : Operand) (hne : s.reading.next.kind ≠ .eof)
    (hw : s.reading.Fits spent n) : Proceeds I spent s (callStep d o) (Past s) := by
  unfold callStep
  refine (proceeds_read _).bind fun callee t ht => .bind_next ?_
  rw [← ht] at hne hw
  refine (proceeds_arguments hd hne hw).bind fun args u hu => ?_
  have hpast : s.reading.Passes u.reading := ht ▸ hu
  split
  · refine .bind_heap (proceeds_framed ((hd.call u _ _).mono fun _ _ hv => ?_))
    exact hpast.on (.of_eq hv)
  · refine .ite (fun _ => ?_) fun _ => proceeds_malformedAt _ _
    refine (proceeds_framed (proceeds_ensureReady hd.toProceeding _)).bind fun _ v hv => ?_
    refine (proceeds_withSpared hd.upheld (Heap.spares_newInstance _)).bind fun _ w hw => .pure ?_
    exact hpast.on (.of_eq (hw.trans hv))
  · exact proceeds_malformedAt _ _

theorem proceeds_pathRound (o : Operand) (hs : s.reading.Sharp) (hw : s.reading.Fits spent n) :
    Proceeds I spent s (pathRound d o) (Marches (Onward s) s) := by
  unfold pathRound
  refine .bind_next ?_
  split
  · exact (proceeds_memberStep hd o hs).bind fun _ _ ht => .pure ht
  · rename_i hparen
    exact (proceeds_callStep hd o (by simp [hparen]) hw).bind fun _ _ ht => .pure ht
  · exact .pure (.refl _)

theorem proceeds_followPath (o : Operand) (hs : s.reading.Sharp) (hw : s.reading.Fits spent n) :
    Proceeds I spent s (followPath d o) (Onward s) := by
  rw [followPath_eq]
  refine proceeds_repeatTokens (Q := Onward) hs (fun _ _ _ => .trans) (fun o t ht hst => ?_) o
  exact proceeds_pathRound hd o ht (hw.reaches hst)

theorem proceeds_operand (hne : s.reading.next.kind ≠ .eof)
    (hw : s.reading.Fits spent (n + 1)) : Proceeds I spent s (operand d) (Past s) := by
  unfold operand
  refine (proceeds_take hne true).bind fun _ t ht => .bind_curr ?_
  split
  · exact (proceeds_followPath hd _ ht.sharp (hw.passes ht)).mono fun _ _ hu => ht.on hu
  · exact proceeds_raise _

theorem proceeds_readOperand (hne : s.reading.next.kind ≠ .eof)
    (hw : s.reading.Fits spent (n + 1)) : Proceeds I spent s (operand d >>= read) (Past s) :=
  (proceeds_operand hd hne hw).bind fun _ _ ht =>
    (proceeds_read _).mono fun _ _ hu => ht.on (.of_eq hu)

theorem proceeds_loadImport (path : Value) (loc : Location) :
    Proceeds I spent s (loadImport d path loc) (Still s) := by
  unfold loadImport
  split
  · exact .bind_reading (proceeds_framed (proceeds_importDit hd.toProceeding _ _))
  · exact proceeds_malformedAt _ _

end

end Eval
end Ditlang
