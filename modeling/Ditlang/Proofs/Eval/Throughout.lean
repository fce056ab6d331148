import Ditlang.Proofs.Eval.Compositional

/-!
# Ditlang.Proofs.Eval.Throughout

A compositional property of the evaluator one level deeper is a property of the evaluator. There is one
lemma for each rule: expressions and paths, types and definitions, terms, and statements.
-/

namespace Ditlang

open Source (Location View)

namespace Eval.Compositional

variable {β : Type} {F : FuncData → Prop} {P : ∀ {α : Type}, Eval α → Prop} {d : Deeper}

section Rules

variable (hP : Compositional F P) (hd : d.Has P)

include hP

/-! ## Expressions -/

theorem add (a b : Value) : P (Eval.add a b) := by
  unfold Eval.add
  split
  · exact hP.pure _
  · exact hP.pure _
  · exact hP.bind hP.heap fun _ => hP.readingAlike (fun _ => hP.raise _) fun _ => rfl

/-- After an element of a sequence: a comma, or the closing token ahead. -/
theorem separator (close : Punct) (message : String) {k : Unit → Eval β} (hk : ∀ u, P (k u)) :
    P (Eval.nextIsPunct .comma >>= fun comma =>
      if comma = true then Eval.advance true >>= k
      else Eval.nextIsPunct close >>= fun closes =>
        if (!closes) = true then Eval.failAfterCurr message >>= k else k ()) := by
  refine hP.bind (hP.nextIsPunct _) fun _ => of_ite (hP.bind (hP.advance _) hk) ?_
  exact hP.bind (hP.nextIsPunct _) fun _ => hP.when (hP.failAfterCurr _) hk

theorem memberName : P Eval.memberName := by
  unfold Eval.memberName
  refine hP.bind (hP.advance _) fun _ => hP.bind (hP.nextIs _) fun _ => ?_
  refine of_ite ?_ (hP.failAtNext _)
  exact hP.bind (hP.advance _) fun _ => hP.bind hP.curr fun _ => hP.pure _

theorem optionalWord : P Eval.optionalWord := by
  unfold Eval.optionalWord
  refine hP.bind (hP.nextIs _) fun _ => of_ite ?_ (hP.pure _)
  exact hP.bind hP.next fun _ => hP.bind (hP.advance _) fun _ => hP.pure _

include hd

theorem continueExpression (v : Value) : P (Eval.continueExpression d v) := by
  unfold Eval.continueExpression
  refine hP.repeatTokens (fun v => ?_) v
  refine hP.bind (hP.nextIsPunct _) fun _ => of_ite ?_ (hP.pure _)
  refine hP.bind (hP.advance _) fun _ => hP.bind hd.term fun _ => ?_
  exact hP.bind (hP.add _ _) fun _ => hP.pure _

theorem expression : P (Eval.expression d) :=
  hP.bind hd.term fun _ => hP.continueExpression hd _

theorem expressionsUntil (close : Punct) (message : String) :
    P (Eval.expressionsUntil d close message) := by
  unfold Eval.expressionsUntil
  refine hP.repeatTokens (fun values => ?_) []
  refine hP.bind (hP.nextIsPunct _) fun _ => of_ite ?_ ?_
  · exact hP.bind (hP.advance _) fun _ => hP.pure _
  · exact hP.bind (hP.expression hd) fun _ => hP.separator _ _ fun _ => hP.pure _

theorem arguments : P (Eval.arguments d) :=
  hP.bind (hP.advance _) fun _ => hP.expressionsUntil hd _ _

/-! ## Paths -/

omit hd in
theorem readyMember (base : Value) (qualifier : Option ContainerId) (name : String)
    (loc : Location) : P (do
      Eval.setHeap ((← Eval.heap).warmMember base qualifier name)
      match ← Eval.ofHeapAt loc ((← Eval.heap).member base qualifier name) with
      | .slot s => (Pure.pure (.slot s) : Eval Operand)
      | other => Pure.pure (.member other)) := by
  refine hP.bind_heap fun h he => ?_
  rw [Heap.warmMember_eq]
  refine hP.bind (hP.setFuncsFrom he (Heap.funcsFrom_warmAll _)) fun _ => ?_
  refine hP.bind hP.heap fun _ => hP.bind (hP.ofHeapAt _ _) fun _ => ?_
  split
  · exact hP.pure _
  · exact hP.pure _

theorem containerMember (base : Value) (qualifier : Option ContainerId) (name : String) :
    P (Eval.containerMember d base qualifier name) := by
  unfold Eval.containerMember
  refine hP.bind hP.curr fun t => hP.bind hP.heap fun _ => ?_
  dsimp only
  split
  · refine hP.bind (hP.framed _ _ (hP.ensureReady hd.body _)) fun _ => ?_
    exact hP.readyMember base qualifier name t.loc
  · exact hP.readyMember base qualifier name t.loc

theorem memberStep (o : Operand) : P (Eval.memberStep d o) := by
  unfold Eval.memberStep
  refine hP.bind hP.memberName fun _ => ?_
  split
  · exact hP.pure _
  · exact hP.containerMember hd _ _ _
  · refine hP.bind (hP.read _) fun _ => ?_
    split
    · exact hP.pure _
    · exact hP.bind hP.heap fun _ => of_ite (hP.pure _) (hP.containerMember hd _ _ _)
    · exact hP.containerMember hd _ _ _

theorem callStep (o : Operand) : P (Eval.callStep d o) := by
  unfold Eval.callStep
  refine hP.bind (hP.read _) fun _ => hP.bind hP.next fun _ => hP.bind (hP.arguments hd) fun _ => ?_
  split
  · exact hP.bind hP.heap fun _ => hP.framed _ _ (hd.call _ _)
  · refine of_ite ?_ (hP.malformedAt _ _)
    refine hP.bind (hP.framed _ _ (hP.ensureReady hd.body _)) fun _ => ?_
    exact hP.bind (hP.withFuncsFrom fun _ => Heap.funcsFrom_alloc (by rintro _ ⟨⟩)) fun _ => hP.pure _
  · exact hP.malformedAt _ _

theorem followPath (o : Operand) : P (Eval.followPath d o) := by
  unfold Eval.followPath
  refine hP.repeatTokens (fun o => hP.bind hP.next fun _ => ?_) o
  split
  · exact hP.bind (hP.memberStep hd _) fun _ => hP.pure _
  · exact hP.bind (hP.callStep hd _) fun _ => hP.pure _
  · exact hP.pure _

theorem operand : P (Eval.operand d) := by
  unfold Eval.operand
  refine hP.bind (hP.advance _) fun _ => hP.bind hP.curr fun _ => ?_
  split
  · exact hP.followPath hd _
  · exact hP.raise _

theorem loadImport (path : Value) (loc : Location) : P (Eval.loadImport d path loc) := by
  unfold Eval.loadImport
  split
  · exact hP.readingAlike (fun _ => hP.framed _ _ (hP.importDit hd.body _ _)) fun _ => rfl
  · exact hP.malformedAt _ _

/-! ## Types and definitions -/

theorem parseType : P (Eval.parseType d) := by
  unfold Eval.parseType
  refine hP.bind (hP.nextIs _) fun _ => hP.when (hP.advance _) fun _ => hP.bind hP.next fun _ => ?_
  split
  · exact hP.bind (hP.advance _) fun _ => hP.pure _
  · refine hP.bind (hP.operand hd) fun _ => hP.bind (hP.read _) fun _ => ?_
    split
    · exact hP.pure _
    · exact hP.malformedAt _ _
  · exact hP.undeclared _
  · exact hP.malformedAt _ _

theorem parentClasses : P (Eval.parentClasses d) := by
  unfold Eval.parentClasses
  refine hP.bind (hP.nextIs _) fun _ => of_ite ?_ (hP.pure _)
  refine hP.repeatTokens (fun parents => ?_) []
  refine hP.bind (hP.advance _) fun _ => hP.bind hP.next fun _ => ?_
  split
  · refine hP.bind (hP.operand hd) fun _ => hP.bind (hP.read _) fun _ => ?_
    split
    · exact hP.bind (hP.nextIsPunct _) fun _ => of_ite (hP.pure _) (hP.pure _)
    · exact hP.malformedAt _ _
  · exact hP.undeclared _
  · exact hP.malformedAt _ _

theorem classDefinition (statement : Bool) : P (Eval.classDefinition d statement) := by
  unfold Eval.classDefinition
  refine hP.bind hP.next fun _ => hP.bind (hP.advance _) fun _ => ?_
  refine hP.bind hP.optionalWord fun _ => hP.when (hP.checkNewName _ _ _) fun _ => ?_
  refine hP.bind (hP.parentClasses hd) fun _ => hP.bind (hP.captureBody _) fun _ => ?_
  refine hP.bind (hP.bodySource _ _) fun _ => hP.readingAlike (fun _ => ?_) fun _ => rfl
  refine hP.bind (hP.withFuncsFrom fun _ => Heap.funcsFrom_alloc (by rintro _ ⟨⟩)) fun _ => ?_
  refine hP.bind (hP.forIn (fun _ _ => ?_) _ _) fun _ => ?_
  · refine hP.bind (hP.framed _ _ (hP.ensureReady hd.body _)) fun _ => ?_
    refine hP.bind ?_ fun _ => hP.pure _
    refine hP.bind_heap fun h he => hP.bind_ofHeapAt fun _ hok => ?_
    exact hP.setFuncsFrom he (Heap.funcsFrom_addParent hok)
  · split
    · exact hP.bind (hP.bindName _ _ _ _) fun _ => hP.pure _
    · exact hP.bind (hP.pure _) fun _ => hP.pure _

theorem parameters : P (Eval.parameters d) := by
  unfold Eval.parameters
  refine hP.bind (hP.advance _) fun _ => hP.repeatTokens (fun params => ?_) []
  refine hP.bind (hP.nextIsPunct _) fun _ => of_ite ?_ ?_
  · exact hP.bind (hP.advance _) fun _ => hP.pure _
  · refine hP.bind (hP.parseType hd) fun _ => hP.bind hP.next fun _ => ?_
    split
    · exact hP.malformedAt _ _
    · refine hP.when (hP.malformedAt _ _) fun _ => hP.bind (hP.advance _) fun _ => ?_
      exact hP.separator _ _ fun _ => hP.pure _

omit hP hd in
theorem parameters_nodup (s : EvalState) :
    Yields s (Eval.parameters d) fun params _ => (params.map (·.name)).Nodup := by
  unfold Eval.parameters
  refine .bind fun _ _ _ => .repeatTokens (I := fun params => (params.map (·.name)).Nodup) ?_ .nil
  intro params s hparams
  refine .bind fun b _ _ => ?_
  split
  · exact .bind fun _ _ _ => .pure hparams
  · refine .bind fun declared _ _ => .gets ?_
    split
    · rintro _ _ ⟨⟩
    · rename_i name _
      by_cases hdup : (params.any (·.name == name)) = true
      · rw [if_pos hdup]
        rintro _ _ ⟨⟩
      · rw [if_neg hdup]
        have hfresh : name ∉ params.map (·.name) := by simpa using hdup
        have hnames : ((params ++ [Param.mk name declared]).map (·.name)).Nodup := by
          simpa using hparams.concat hfresh
        refine .bind fun _ _ _ => .bind fun comma _ _ => ?_
        dsimp only
        split
        · exact .bind fun _ _ _ => .pure hnames
        · refine .bind fun closes _ _ => ?_
          split
          · exact .bind fun _ _ _ => .pure hnames
          · exact .pure hnames

theorem funcLang : P (Eval.funcLang d) := by
  unfold Eval.funcLang
  refine hP.bind hP.next fun _ => ?_
  split
  · exact hP.bind (hP.advance _) fun _ => hP.pure _
  · refine hP.bind (hP.operand hd) fun _ => hP.bind (hP.read _) fun _ => ?_
    split
    · exact hP.pure _
    · exact hP.malformedAt _ _
  · exact hP.raise _
  · exact hP.malformedAt _ _

theorem returnType : P (Eval.returnType d) := by
  unfold Eval.returnType
  refine hP.bind (hP.nextIs _) fun _ => of_ite ?_ ?_
  · exact hP.bind (hP.advance _) fun _ => hP.pure _
  · exact hP.bind (hP.parseType hd) fun _ => hP.pure _

omit hd in
theorem funcName : P Eval.funcName := by
  unfold Eval.funcName
  refine hP.bind hP.next fun _ => of_ite (hP.pure _) ?_
  split
  · exact hP.bind (hP.advance _) fun _ => hP.pure _
  · exact hP.malformedAt _ _

theorem funcDefinition (statement : Bool) : P (Eval.funcDefinition d statement) := by
  unfold Eval.funcDefinition
  refine hP.bind hP.next fun _ => hP.bind (hP.advance _) fun _ => ?_
  refine hP.bind (hP.funcLang hd) fun _ => hP.bind (hP.returnType hd) fun _ => ?_
  refine hP.bind hP.funcName fun _ => hP.when (hP.checkNewName _ _ _) fun _ => ?_
  refine hP.bind (hP.nextIsPunct _) fun _ => hP.when (hP.failAfterCurr _) fun _ => ?_
  refine hP.bindOf (hP.parameters hd) (fun s _ => parameters_nodup s) fun params hnames => ?_
  refine hP.bind (hP.captureBody _) fun _ => hP.bind (hP.bodySource _ _) fun _ => ?_
  refine hP.readingAlike (fun _ => ?_) fun _ => rfl
  refine hP.bind (hP.withHeap fun _ he => he.alloc ?_) fun _ => ?_
  · rintro _ ⟨⟩
    exact hP.lasting.defined _ _ hnames
  dsimp only
  split
  · exact hP.bind (hP.bindName _ _ _ _) fun _ => hP.pure _
  · exact hP.bind (hP.pure _) fun _ => hP.pure _

theorem langDefinition : P (Eval.langDefinition d) := by
  unfold Eval.langDefinition
  refine hP.bind hP.next fun _ => hP.bind (hP.advance _) fun _ => hP.bind hP.optionalWord fun _ => ?_
  split
  · exact hP.failAtNext _
  · refine hP.bind (hP.captureBody _) fun _ => hP.bind (hP.bodySource _ _) fun _ => ?_
    refine hP.readingAlike (fun _ => ?_) fun _ => rfl
    refine hP.bind (hP.withFuncsFrom fun _ => Heap.funcsFrom_alloc (by rintro _ ⟨⟩)) fun _ => ?_
    refine hP.bind (hP.framed _ _ (hP.ensureReady hd.body _)) fun _ => hP.bind_heap fun h he => ?_
    split
    · exact hP.bind_ofHeapAt fun _ hok => hP.setFuncsFrom he (Heap.funcsFrom_assign hok)
    · split
      · refine hP.bind (hP.withFuncsFrom fun _ => ?_) fun _ => hP.bindName _ _ _ _
        exact Heap.funcsFrom_mergeLangs _ _
      · exact hP.bindName _ _ _ _

/-! ## Terms -/

theorem listLiteral : P (Eval.listLiteral d) := by
  unfold Eval.listLiteral
  refine hP.bind (hP.advance _) fun _ => hP.bind (hP.expressionsUntil hd _ _) fun _ => ?_
  exact hP.bind (hP.withFuncsFrom fun _ => .of_containers rfl) fun _ => hP.pure _

omit hd in
theorem jsonKey : P Eval.jsonKey := by
  unfold Eval.jsonKey
  refine hP.bind hP.next fun _ => ?_
  split
  · exact hP.stringLiteral
  · exact hP.stringLiteral
  · split
    · exact hP.bind (hP.advance _) fun _ => hP.pure _
    · exact hP.malformedAt _ _

theorem jsonLiteral : P (Eval.jsonLiteral d) := by
  unfold Eval.jsonLiteral
  refine hP.bind (hP.advance _) fun _ => hP.bind (hP.repeatTokens (fun entries => ?_) _) fun _ => ?_
  · refine hP.bind (hP.nextIsPunct _) fun _ => of_ite ?_ ?_
    · exact hP.bind (hP.advance _) fun _ => hP.pure _
    · refine hP.bind hP.jsonKey fun _ => hP.bind (hP.nextIsPunct _) fun _ => ?_
      refine hP.when (hP.failAfterCurr _) fun _ => hP.bind (hP.advance _) fun _ => ?_
      exact hP.bind (hP.expression hd) fun _ => hP.separator _ _ fun _ => hP.pure _
  · exact hP.bind (hP.withFuncsFrom fun _ => .of_containers rfl) fun _ => hP.pure _

theorem anonymousTail (v : Value) : P (Eval.anonymousTail d v) :=
  hP.bind (hP.advance _) fun _ => hP.bind (hP.followPath hd _) fun _ => hP.read _

theorem term : P (Eval.term d) := by
  unfold Eval.term
  refine hP.bind hP.next fun _ => ?_
  split
  · exact hP.bind hP.stringLiteral fun _ => hP.pure _
  · exact hP.bind hP.stringLiteral fun _ => hP.pure _
  · refine hP.bind (hP.advance _) fun _ => hP.bind hP.curr fun _ => ?_
    split
    · exact hP.pure _
    · exact hP.raise _
  · exact hP.bind (hP.advance _) fun _ => hP.pure _
  · exact hP.bind (hP.advance _) fun _ => hP.pure _
  · exact hP.bind (hP.advance _) fun _ => hP.pure _
  · exact hP.listLiteral hd
  · exact hP.jsonLiteral hd
  · exact hP.bind (hP.classDefinition hd _) fun _ => hP.anonymousTail hd _
  · exact hP.bind (hP.funcDefinition hd _) fun _ => hP.anonymousTail hd _
  · refine hP.bind (hP.advance _) fun _ => hP.bind hd.term fun _ => ?_
    refine hP.bind (hP.loadImport hd _ _) fun _ => hP.bind (hP.followPath hd _) fun _ => hP.read _
  · exact hP.bind (hP.operand hd) fun _ => hP.read _
  · exact hP.undeclared _
  · exact hP.malformedAt _ _

/-! ## Statements -/

omit hP hd in
theorem declarationOwner (hP : Compositional F P) (base : Value) (word : String) (loc : Location) :
    P (Eval.declarationOwner base word loc) := by
  unfold Eval.declarationOwner
  split
  · exact hP.pure _
  · exact hP.malformedAt _ _

theorem declarationTarget : P (Eval.declarationTarget d) := by
  unfold Eval.declarationTarget
  refine hP.bind hP.next fun _ => ?_
  split
  · exact hP.malformedAt _ _
  · refine hP.bind (hP.advance _) fun _ => hP.bind (hP.nextIsPunct _) fun _ => of_ite ?_ ?_
    · split
      · exact hP.malformedAt _ _
      · refine hP.bind hP.heap fun _ => hP.repeatTokens (fun base => ?_) _
        refine hP.bind hP.memberName fun _ => hP.bind (hP.nextIsPunct _) fun _ => of_ite ?_ ?_
        · refine hP.bind (hP.containerMember hd _ _ _) fun _ => ?_
          exact hP.bind (hP.read _) fun _ => hP.pure _
        · refine hP.bind hP.curr fun _ => ?_
          exact hP.bind (hP.declarationOwner _ _ _) fun _ => hP.pure _
    · exact hP.readingAlike (fun _ => hP.pure _) fun _ => rfl

theorem declarationRest (declared : Declared) : P (Eval.declarationRest d declared) := by
  unfold Eval.declarationRest
  refine hP.bind hP.next fun _ => hP.bind (hP.declarationTarget hd) fun _ => ?_
  refine hP.bind (hP.declareIn _ _ _ _) fun _ => hP.bind (hP.nextIsPunct _) fun _ => of_ite ?_ ?_
  · refine hP.bind (hP.advance _) fun _ => hP.bind (hP.expression hd) fun _ => ?_
    exact hP.bind (hP.assignSlot _ _) fun _ => hP.expectTerminal
  · exact hP.expectTerminal

omit hd in
theorem keepValue (v : Value) : P (Eval.keepValue v) := hP.modifyReading fun _ => rfl

/-- After a value: the rest of a declaration if it is a class, or an assignment, or an expression. -/
theorem afterOperand (o : Operand) (cls : Option ContainerId) : P (match cls with
    | some c => Eval.declarationRest d (.scalar (.of c))
    | none => do
      if ← Eval.nextIsPunct .equals then
        Eval.advance true
        let v ← Eval.expression d
        Eval.store o v
      else
        let v ← Eval.read o
        Eval.keepValue (← Eval.continueExpression d v)
      Eval.expectTerminal) := by
  split
  · exact hP.declarationRest hd _
  · refine hP.bind (hP.nextIsPunct _) fun _ => of_ite ?_ ?_
    · refine hP.bind (hP.advance _) fun _ => hP.bind (hP.expression hd) fun _ => ?_
      exact hP.bind (hP.store _ _) fun _ => hP.expectTerminal
    · refine hP.bind (hP.read _) fun _ => hP.bind (hP.continueExpression hd _) fun _ => ?_
      exact hP.bind (hP.keepValue _) fun _ => hP.expectTerminal

theorem valueStatement : P (Eval.valueStatement d) := by
  unfold Eval.valueStatement
  refine hP.bind (hP.operand hd) fun o => hP.bind hP.next fun _ => of_ite ?_ ?_
  · refine hP.bind (hP.bind (hP.read _) fun v => ?_) (hP.afterOperand hd o)
    split
    · exact hP.pure _
    · exact hP.pure _
  · exact hP.bind (hP.pure _) fun _ => hP.afterOperand hd o _

omit hd in
theorem expose (dit : ContainerId) (loc : Location) : P (Eval.expose dit loc) := by
  unfold Eval.expose
  refine hP.readingAlike (fun _ => hP.bind hP.heap fun _ => ?_) fun _ => rfl
  refine hP.bind (hP.forIn (fun (_ : String × SlotId) _ => ?_) _ _) fun _ => hP.pure _
  refine hP.bind_heap fun h he => hP.bind_ofHeapAt fun _ hok => ?_
  exact hP.bind (hP.setFuncsFrom he (Heap.funcsFrom_insertAlias hok)) fun _ => hP.pure _

theorem importNames (path : Value) (loc : Location) : P (Eval.importNames d path loc) := by
  unfold Eval.importNames
  refine hP.bind (hP.loadImport hd _ _) fun _ => hP.bind (hP.expose _ _) fun _ => ?_
  exact hP.expectTerminal

theorem importStatement : P (Eval.importStatement d) := by
  unfold Eval.importStatement
  refine hP.bind hP.next fun _ => hP.bind (hP.advance _) fun _ => hP.bind hP.next fun t => ?_
  refine of_ite ?_ ?_
  · refine hP.bind (hP.advance _) fun _ => hP.bind (hP.nextIs _) fun _ => of_ite ?_ ?_
    · refine hP.bind (hP.checkNewName _ _ _) fun _ => hP.bind (hP.advance _) fun _ => ?_
      refine hP.bind (hP.expression hd) fun _ => hP.bind (hP.loadImport hd _ _) fun _ => ?_
      exact hP.bind (hP.bindName _ _ _ _) fun _ => hP.expectTerminal
    · refine hP.bind hP.heap fun h => hP.readingAlike (fun r => ?_) fun _ => rfl
      split
      · exact hP.undeclared _
      · refine hP.bind (hP.followPath hd _) fun _ => hP.bind (hP.read _) fun _ => ?_
        exact hP.bind (hP.continueExpression hd _) fun _ => hP.importNames hd _ _
  · exact hP.bind (hP.expression hd) fun _ => hP.importNames hd _ _

/-! ## Statements that only a fragment may have -/

omit hd in
/-- Outside of functions a `return` fails in a program; a fragment goes on with it. -/
theorem bind_canReturn {k : Bool → Eval β} (hk : ∀ b, P (k b))
    (hfails : ∀ s a t, k false s ≠ .done a t) : P (Eval.canReturn >>= k) := by
  unfold Eval.canReturn
  rw [bind_assoc]
  refine hP.reading (fun r => ?_) (.of_program fun s a t hf => ?_)
  · refine hP.bind (hP.bind hP.heap fun _ => ?_) hk
    split
    · exact hP.pure _
    · exact hP.pure _
  · intro h
    obtain ⟨b, u, hb, hku⟩ := bind_eq_done_iff.1 h
    cases b with
    | false => exact absurd hku (hfails u a t)
    | true =>
      refine bind_eq_done_iff.2 ⟨true, u, ?_, hku⟩
      obtain ⟨_, _, ⟨⟩, hkind⟩ := bind_eq_done_iff.1 hb
      refine bind_eq_done_iff.2 ⟨_, _, rfl, ?_⟩
      simp only [hf, Reading.asFragment] at hkind ⊢
      generalize (s.session.heap.container s.reading.body).kind = kind at hkind ⊢
      cases kind with
      | frame => exact hkind
      | _ => cases hkind

theorem returnStatement : P (Eval.returnStatement d) := by
  unfold Eval.returnStatement
  have hdone : ∀ v : Value, P (do
      Eval.expectTerminal
      Pure.pure (Signal.returned v)) := fun _ => hP.bind hP.expectTerminal fun _ => hP.pure _
  refine hP.bind_canReturn (fun b => ?_) fun s a t h => ?_
  · refine hP.when (hP.failAtNext _) fun _ => hP.bind (hP.advance _) fun _ => ?_
    refine hP.reading (fun r => hP.bind_ite (hP.pure _) (hP.expression hd) hdone) ?_
    refine .of_program fun s a t hf => ?_
    dsimp only [Reading.asFragment]
    rw [hf, Bool.and_false, Bool.or_false, Bool.and_true]
    cases heof : s.reading.next.kind == .eof with
    | false => rw [Bool.or_false]; exact id
    | true =>
      -- The program needs a value here, and there is none.
      intro h
      exfalso
      rw [eq_of_beq heof] at h
      obtain ⟨v, u, hv, -⟩ := bind_eq_done_iff.1 h
      obtain ⟨w, u', hw, -⟩ := bind_eq_done_iff.1 hv
      exact hd.atEnd _ _ _ hw (eq_of_beq heof)
  · cases h

theorem throwStatement : P (Eval.throwStatement d) := by
  unfold Eval.throwStatement
  refine hP.bind (hP.advance _) fun _ => hP.bind (hP.expression hd) fun _ => ?_
  exact hP.bind hP.expectTerminal fun _ => hP.pure _

theorem expressionStatement : P (Eval.expressionStatement d) :=
  hP.bind (hP.expression hd) fun _ => hP.bind (hP.keepValue _) fun _ => hP.expectTerminal

omit hP hd in
theorem illegal_ne_done (kind : TokenKind) (t : Token) (s : EvalState) (a : Unit) (u : EvalState) :
    (match kind with
      | .fence f =>
        Eval.malformedAt ("'" ++ f.text ++ "' is only allowed inside guest function bodies") t.loc
      | _ => Eval.malformedAt "Illegal start of statement" t.loc : Eval Unit) s ≠ .done a u := by
  intro h
  cases kind with
  | fence f => cases h
  | _ => cases h

/-- A program does not have an expression as a statement. -/
theorem plainStatement (t : Token) : P (Eval.plainStatement d t) := by
  unfold Eval.plainStatement
  split
  · exact hP.bind (hP.parseType hd) fun _ => hP.declarationRest hd _
  · exact hP.bind (hP.parseType hd) fun _ => hP.declarationRest hd _
  · exact hP.valueStatement hd
  · exact hP.discard (hP.classDefinition hd _)
  · exact hP.discard (hP.funcDefinition hd _)
  · exact hP.langDefinition hd
  · exact hP.importStatement hd
  · exact hP.undeclared _
  · refine hP.reading (fun r => ?_) (.of_program fun s a u hf h => ?_)
    · refine of_ite (hP.expressionStatement hd) ?_
      split
      · exact hP.malformedAt _ _
      · exact hP.malformedAt _ _
    · rw [hf, Bool.false_and, if_neg Bool.false_ne_true] at h
      exact absurd h (illegal_ne_done _ t _ _ _)

theorem statement : P (Eval.statement d) := by
  unfold Eval.statement
  refine hP.bind hP.next fun _ => ?_
  split
  · exact hP.returnStatement hd
  · exact hP.throwStatement hd
  · exact hP.bind (hP.plainStatement hd _) fun _ => hP.pure _

theorem statements : P (Eval.statements d) := by
  unfold Eval.statements
  refine hP.repeatTokens (fun _ => hP.bind (hP.advance _) fun _ => hP.bind hP.next fun _ => ?_) ()
  split
  · exact hP.pure _
  · exact hP.pure _
  · refine hP.bind (hP.statement hd) fun _ => ?_
    split
    · exact hP.pure _
    · exact hP.pure _

end Rules

/-! ## Every depth -/

theorem term_ne_done {s : EvalState} (heof : s.reading.next.kind = .eof) (v : Value)
    (t : EvalState) : Eval.term d s ≠ .done v t := by
  intro h
  obtain ⟨_, _, ⟨⟩, h⟩ := bind_eq_done_iff.1 h
  rw [heof] at h
  cases h

/-- A property that a body has as soon as its statements do, and a call as soon as bodies do, is a
property of the evaluator at every depth. -/
theorem deeper_has (hP : Compositional F P)
    (hrun : ∀ d, P (Eval.statements d) → ∀ c path view fragment,
      P (Eval.runBody d c path view fragment))
    (hcall : ∀ d : Deeper, (∀ c path view fragment, P (d.body c path view fragment)) →
      ∀ func args, P (Eval.callFunction d func args))
    (rounds fuel : Nat) : Deeper.Has P ⟨rounds, termAt fuel, bodyAt fuel⟩ := by
  induction fuel generalizing rounds with
  | zero =>
    have hbody : ∀ c path view fragment, P (bodyAt 0 c path view fragment) := fun _ _ _ _ => hP.outOfFuel
    exact ⟨hP.outOfFuel, hbody, hcall _ hbody, fun _ _ _ h => nomatch h⟩
  | succ fuel ih =>
    have hbody : ∀ c path view fragment, P (bodyAt (fuel + 1) c path view fragment) :=
      hrun _ (hP.statements (ih fuel))
    refine ⟨hP.term (ih fuel), hbody, hcall _ hbody, fun s v t h heof => ?_⟩
    exact term_ne_done heof v t h

end Eval.Compositional
end Ditlang
