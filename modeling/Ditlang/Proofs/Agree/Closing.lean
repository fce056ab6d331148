import Ditlang.Eval.Statements
import Ditlang.Proofs.Agree.Reading
import Ditlang.Proofs.Eval.Yields

/-!
# Ditlang.Proofs.Agree.Closing

Where statements end. A statement that succeeds has its last token ahead: a `;`, or the brace that
closes the body of a definition. So no statement of a program looks beyond its own end, and none
that succeeds has come to the end of the source (`closes_statement`).
-/

namespace Ditlang

open Source (Location View Feed)

namespace Eval

variable {α β : Type} {d : Deeper}

/-- Whatever the computation does, the reading is as before. -/
def Stays (x : Eval α) : Prop :=
  ∀ s a t, x s = .done a t → t.reading = s.reading

/-- In a program, the computation does not end at the end of the source. -/
def Closes (x : Eval α) : Prop :=
  ∀ s a t, x s = .done a t → t.reading.fragment = false → t.reading.next.kind ≠ .eof

/-! ## Computations that do not read on -/

theorem Stays.bind {x : Eval α} {f : α → Eval β} (hx : Stays x) (hf : ∀ a, Stays (f a)) :
    Stays (x >>= f) := by
  intro s b u hdone
  obtain ⟨a, t, hxs, hft⟩ := bind_eq_done_iff.1 hdone
  rw [hf a t b u hft, hx s a t hxs]

theorem stays_pure (a : α) : Stays (pure a : Eval α) := by
  rintro s _ _ ⟨⟩
  rfl

theorem stays_fail (e : Failure) : Stays (fail e : Eval α) := by
  rintro s _ _ ⟨⟩

theorem stays_gets (f : EvalState → α) : Stays (gets f) := by
  rintro s _ _ ⟨⟩
  rfl

theorem stays_setHeap (h : Heap) : Stays (setHeap h) := by
  rintro s _ _ ⟨⟩
  rfl

theorem stays_note (e : BodyEvent) : Stays (note e) := by
  rintro s _ _ ⟨⟩
  rfl

theorem stays_withHeap (f : Heap → α × Heap) : Stays (withHeap f) := by
  rintro s _ _ ⟨⟩
  rfl

theorem stays_ofDiagnostic (x : Except Diagnostic α) : Stays (ofDiagnostic x) := by
  cases x with
  | ok a => exact stays_pure a
  | error e => exact stays_fail _

theorem stays_uncaught (v : Value) : Stays (uncaught v : Eval α) := by
  refine Stays.bind (Stays.bind (stays_gets _) fun h => ?_) fun _ => stays_fail _
  cases h.render? v with
  | some text => exact stays_pure text
  | none => rintro s _ _ ⟨⟩

theorem stays_mapFailure {F : EvalState → Failure → Failure} {x : Eval α} (hx : Stays x) :
    Stays (mapFailure F x) := by
  intro s a t hdone
  unfold mapFailure at hdone
  split at hdone
  · cases hdone
  · exact hx s a t hdone

theorem stays_forIn {f : α → PUnit → Eval (ForInStep PUnit)} (hf : ∀ x u, Stays (f x u))
    (xs : List α) (u : PUnit) : Stays (forIn xs u f) := by
  induction xs generalizing u with
  | nil => exact stays_pure u
  | cons x xs ih =>
    rw [List.forIn_cons]
    refine (hf x u).bind fun r => ?_
    cases r with
    | done v => exact stays_pure v
    | yield v => exact ih v

theorem stays_bodySource (view : View) (defLoc : Location) : Stays (bodySource view defLoc) :=
  (stays_gets _).bind fun _ => stays_pure _

theorem stays_declareIn (owner : ContainerId) (name : String) (declared : Declared)
    (loc : Location) : Stays (declareIn owner name declared loc) :=
  (stays_gets _).bind fun _ => (stays_ofDiagnostic _).bind fun r =>
    (stays_setHeap r.2).bind fun _ => stays_pure r.1

theorem stays_assignSlot (s : SlotId) (v : Value) : Stays (assignSlot s v) :=
  (stays_gets _).bind fun _ => (stays_ofDiagnostic _).bind fun h => stays_setHeap (h.warmAssign s v)

theorem stays_bindName (name : String) (ty : TypeSpec) (v : Value) (loc : Location) :
    Stays (bindName name ty v loc) :=
  (stays_gets _).bind fun _ => (stays_declareIn _ _ _ _).bind fun s => stays_assignSlot s v

theorem stays_extendClass (c parent : ContainerId) (loc : Location) :
    Stays (extendClass c parent loc) :=
  (stays_gets _).bind fun _ => (stays_ofDiagnostic _).bind fun h => stays_setHeap h

theorem stays_bodyAt (fuel : Nat) (c : ContainerId) (path : String) (v : View) (fragment : Bool) :
    Stays (bodyAt fuel c path v fragment) := by
  intro s r t hdone
  cases fuel with
  | zero => cases hdone
  | succ fuel =>
    rw [bodyAt, runBody] at hdone
    split at hdone
    · cases hdone
      rfl
    · cases hdone
    · cases hdone

section

variable (hd : ∀ c path v fragment, Stays (d.body c path v fragment))

include hd

theorem stays_interpret (c : ContainerId) : Stays (interpret d c) := by
  unfold interpret
  refine (stays_gets _).bind fun h => ?_
  split
  · exact stays_pure _
  · refine (stays_setHeap _).bind fun _ => (stays_mapFailure (hd _ _ _ _)).bind fun r => ?_
    split
    · exact stays_uncaught _
    · exact stays_pure _

theorem stays_ensureReady (c : ContainerId) : Stays (ensureReady d c) :=
  (stays_interpret hd c).bind fun _ => stays_note _

end

/-! ## Ends of statements -/

theorem Closes.last {x : Eval α} {f : α → Eval β} (hf : ∀ a, Closes (f a)) : Closes (x >>= f) := by
  intro s b u hdone
  obtain ⟨a, t, -, hft⟩ := bind_eq_done_iff.1 hdone
  exact hf a t b u hft

/-- What closes a computation may be followed by what does not read on. -/
theorem Closes.bind {x : Eval α} {f : α → Eval β} (hx : Closes x) (hf : ∀ a, Stays (f a)) :
    Closes (x >>= f) := by
  intro s b u hdone
  obtain ⟨a, t, hxs, hft⟩ := bind_eq_done_iff.1 hdone
  rw [hf a t b u hft]
  exact hx s a t hxs

theorem Closes.ite {c : Prop} [Decidable c] {x y : Eval α} (hx : Closes x) (hy : Closes y) :
    Closes (if c then x else y) := by
  split
  · exact hx
  · exact hy

theorem Closes.when {c : Prop} [Decidable c] {x : Eval Unit} {k : Unit → Eval β}
    (hk : ∀ u, Closes (k u)) : Closes (if c then x >>= k else k ()) :=
  .ite (.last hk) (hk ())

theorem closes_fail (e : Failure) : Closes (fail e : Eval α) := by
  rintro s _ _ ⟨⟩

theorem closes_failAfterCurr (message : String) : Closes (failAfterCurr message : Eval α) :=
  .last fun _ => closes_fail _

theorem stays_expectTerminal : Stays expectTerminal := by
  have hfail (message : String) : Stays (failAfterCurr message : Eval Unit) :=
    (stays_gets _).bind fun _ => stays_fail _
  refine (stays_gets _).bind fun r => ?_
  split
  · exact stays_pure _
  · split
    · exact stays_pure _
    · exact hfail _
  · exact hfail _

theorem closes_expectTerminal : Closes expectTerminal := by
  intro s a t hdone hprogram heof
  rw [stays_expectTerminal s a t hdone] at hprogram heof
  simp [expectTerminal, bind_apply, Eval.bind, reading, curr, gets, hprogram, heof, failAfterCurr,
    malformedAt, raise, fail] at hdone

theorem closes_captureBody (what : String) : Closes (captureBody what) := by
  unfold captureBody
  refine .last fun b => ?_
  split
  · intro s view u hdone _
    obtain ⟨_, t, hscan, hdone⟩ := bind_eq_done_iff.1 hdone
    obtain ⟨_, t', hadvance, hdone⟩ := bind_eq_done_iff.1 hdone
    cases hdone
    unfold scan Lexer.captureBraces at hscan
    split at hscan
    · rename_i hcapture
      split at hcapture
      · cases hcapture
      · rename_i n hn
        -- The cursor is on the closing brace, which is therefore the next token.
        obtain ⟨-, rest, hrest⟩ := Lexer.closingBrace_drop hn
        cases hcapture
        cases hscan
        rw [advance_apply, Feed.advance_rest, ← Nat.sub_zero n, hrest, Lexer.find_braceRight]
          at hadvance
        cases hadvance
        simp [Reading.take]
    · cases hscan
  · exact closes_failAfterCurr _

theorem closes_funcDefinition (statement : Bool) : Closes (funcDefinition d statement) := by
  unfold funcDefinition
  refine .last fun _ => .last fun _ => .last fun lang => .last fun ret => .last fun name => ?_
  refine .when fun _ => .last fun b => .when fun _ => .last fun params => ?_
  refine (closes_captureBody _).bind fun view => (stays_bodySource _ _).bind fun body => ?_
  refine (stays_gets _).bind fun r => (stays_withHeap _).bind fun f => ?_
  dsimp only
  split
  · exact (stays_bindName _ _ _ _).bind fun _ => stays_pure _
  · exact stays_pure _

theorem closes_declarationRest (declared : Declared) : Closes (declarationRest d declared) := by
  unfold declarationRest
  refine .last fun _ => .last fun target => ?_
  refine .last fun s => .last fun b => .ite ?_ closes_expectTerminal
  exact .last fun _ => .last fun v => .last fun _ => closes_expectTerminal

theorem closes_afterOperand (o : Operand) (cls : Option ContainerId) : Closes (do
    match cls with
    | some c => declarationRest d (.scalar (.of c))
    | none =>
      if ← nextIsPunct .equals then
        advance true
        let v ← expression d
        store o v
      else
        let v ← read o
        keepValue (← continueExpression d v)
      expectTerminal) := by
  split
  · exact closes_declarationRest _
  · refine .last fun b => .ite ?_ ?_
    · exact .last fun _ => .last fun v => .last fun _ => closes_expectTerminal
    · exact .last fun v => .last fun w => .last fun _ => closes_expectTerminal

theorem closes_valueStatement : Closes (valueStatement d) := by
  unfold valueStatement
  refine .last fun o => .last fun t => .ite ?_ ?_
  · exact .last fun cls => closes_afterOperand o cls
  · exact .last fun cls => closes_afterOperand o cls

theorem closes_importNames (path : Value) (loc : Location) : Closes (importNames d path loc) :=
  .last fun _ => .last fun _ => closes_expectTerminal

theorem closes_importStatement : Closes (importStatement d) := by
  unfold importStatement
  refine .last fun _ => .last fun _ => .last fun t => ?_
  split
  · refine .last fun _ => .last fun b => ?_
    split
    · refine .last fun _ => .last fun _ => .last fun path => .last fun dit => ?_
      exact .last fun _ => closes_expectTerminal
    · refine .last fun h => .last fun r => ?_
      split
      · exact closes_fail _
      · exact .last fun o => .last fun v => .last fun path => closes_importNames path _
  · exact .last fun path => closes_importNames path _

theorem closes_returnStatement : Closes (returnStatement d) := by
  unfold returnStatement
  have hrest (v : Value) : Closes (do expectTerminal; pure (Signal.returned v)) :=
    closes_expectTerminal.bind fun _ => stays_pure _
  refine .last fun b => .when fun _ => .last fun _ => .last fun r => .ite ?_ ?_
  · exact .last fun v => hrest v
  · exact .last fun v => hrest v

theorem closes_throwStatement : Closes (throwStatement d) :=
  .last fun _ => .last fun _ => closes_expectTerminal.bind fun _ => stays_pure _

theorem closes_expressionStatement : Closes (expressionStatement d) :=
  .last fun _ => .last fun _ => closes_expectTerminal

section

variable (hd : ∀ c path v fragment, Stays (d.body c path v fragment))

include hd

theorem closes_classDefinition (statement : Bool) : Closes (classDefinition d statement) := by
  unfold classDefinition
  refine .last fun _ => .last fun _ => .last fun name => .when fun _ => .last fun parents => ?_
  refine (closes_captureBody _).bind fun view => (stays_bodySource _ _).bind fun body => ?_
  refine (stays_gets _).bind fun r => (stays_withHeap _).bind fun c => ?_
  refine (stays_forIn (fun parent _ => ?_) parents _).bind fun _ => ?_
  · refine (stays_mapFailure (stays_ensureReady hd parent)).bind fun _ => ?_
    exact (stays_extendClass c parent _).bind fun _ => stays_pure _
  · dsimp only
    split
    · exact (stays_bindName _ _ _ _).bind fun _ => stays_pure _
    · exact stays_pure _

theorem closes_langDefinition : Closes (langDefinition d) := by
  unfold langDefinition
  refine .last fun _ => .last fun _ => .last fun word => ?_
  split
  · exact .last fun _ => closes_fail _
  · rename_i name
    refine (closes_captureBody _).bind fun view => (stays_bodySource _ _).bind fun body => ?_
    refine (stays_gets _).bind fun r => (stays_withHeap _).bind fun lang => ?_
    refine (stays_mapFailure (stays_ensureReady hd lang)).bind fun _ => ?_
    refine (stays_gets _).bind fun h => ?_
    split
    · exact (stays_ofDiagnostic _).bind fun h => stays_setHeap h
    · split
      · exact (stays_withHeap _).bind fun _ => stays_bindName _ _ _ _
      · exact stays_bindName _ _ _ _

theorem closes_plainStatement (t : Token) : Closes (plainStatement d t) := by
  unfold plainStatement
  split
  · exact .last fun declared => closes_declarationRest declared
  · exact .last fun declared => closes_declarationRest declared
  · exact closes_valueStatement
  · exact (closes_classDefinition hd true).bind fun _ => stays_pure _
  · exact (closes_funcDefinition true).bind fun _ => stays_pure _
  · exact closes_langDefinition hd
  · exact closes_importStatement
  · exact closes_fail _
  · refine .last fun r => ?_
    split
    · exact closes_expressionStatement
    · split
      · exact closes_fail _
      · exact closes_fail _

/-- No statement of a program ends at the end of the source. -/
theorem closes_statement : Closes (statement d) := by
  unfold statement
  refine .last fun t => ?_
  split
  · exact closes_returnStatement
  · exact closes_throwStatement
  · exact (closes_plainStatement hd t).bind fun _ => stays_pure _

end

/-! ## Returns -/

section

variable {s : EvalState} (hprogram : s.reading.fragment = false)
  (hbody : s.session.heap.IsKind .dit s.reading.body)

include hprogram hbody

theorem canReturn_eq_false : canReturn s = .done false s := by
  unfold Heap.IsKind ContainerKind.valueKind? at hbody
  unfold canReturn
  simp only [bind_apply, Eval.bind, reading, heap, gets]
  cases hkind : (s.session.heap.container s.reading.body).kind with
  | frame f =>
    rw [hkind] at hbody
    cases hbody
  | _ => simp [pure, Eval.pure, hprogram]

/-- No statement of a program returns. -/
theorem statement_not_returned :
    Yields s (statement d) fun signal _ => ∀ v, signal ≠ .returned v := by
  unfold statement
  refine .gets ?_
  split
  · refine .bind fun b t hreturn => ?_
    rw [canReturn_eq_false hprogram hbody] at hreturn
    cases hreturn
    rintro _ _ ⟨⟩
  · refine .bind fun _ _ _ => .bind fun _ _ _ => .bind fun _ _ _ => ?_
    rintro _ _ ⟨⟩ v ⟨⟩
  · refine .bind fun _ _ _ => ?_
    rintro _ _ ⟨⟩ v ⟨⟩

end

end Eval
end Ditlang
