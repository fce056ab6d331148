import Ditlang.Proofs.Agree.Statements
import Ditlang.Proofs.Cursor.Statements

/-!
# Ditlang.Proofs.Cursor.Outside

What the evaluator does when more is done for it. `Below x y` says that `y` does what `x` does, wherever
`x` does not run out of fuel. The evaluator is monotone in what it is given one level deeper: if a term,
a body and a call are below others, then so is each rule of the evaluator with them.

So a source can be run without what is outside of its own text. The evaluator leaves the text that it
reads in two ways: it runs another body, of an import, a class or a Lang, and it calls a function. Here
both are given from outside (`Outside`), at every level. With what the evaluator itself does there, this
is the evaluator (`bodyAt_succ`).

A source is `SelfContained` when it makes no difference what is outside, since it asks for nothing. Then
it runs as it does where everything outside is refused, and there nothing but its text takes fuel. So it
ends (`bodyAt_ends`). That it asks for nothing can be tried: it ends although nothing outside ever does
(`selfContained_iff`).
-/

namespace Ditlang

open Source (Location View)

/-- The second computation does what the first does, unless that runs out of fuel. -/
def Eval.Below {α : Type} (x y : Eval α) : Prop :=
  ∀ s, x s = .outOfFuel ∨ x s = y s

/-- Whatever is done one level deeper is also done there. -/
structure Deeper.Below (d d' : Deeper) [Eval.Calling d] [Eval.Calling d'] : Prop where
  term : d.term.Below d'.term
  body : ∀ c path view fragment, (d.body c path view fragment).Below (d'.body c path view fragment)
  call : ∀ func args, (Eval.Calling.call d func args).Below (Eval.Calling.call d' func args)

namespace Eval

variable {α β : Type}

namespace Below

theorem refl (x : Eval α) : x.Below x :=
  fun _ => .inr rfl

theorem outOfFuel (x : Eval α) : Eval.outOfFuel.Below x :=
  fun _ => .inl rfl

theorem bind {x x' : Eval α} {f f' : α → Eval β} (hx : x.Below x') (hf : ∀ a, (f a).Below (f' a)) :
    (x >>= f).Below (x' >>= f') := by
  intro s
  rw [bind_apply, bind_apply, Eval.bind, Eval.bind]
  obtain hout | heq := hx s
  · rw [hout]
    exact .inl rfl
  · rw [← heq]
    cases x s with
    | done a t => exact hf a t
    | failed e t => exact .inr rfl
    | outOfFuel => exact .inl rfl

/-- What comes after something that is the same for both. -/
theorem after {x : Eval α} {f f' : α → Eval β} (hf : ∀ a, (f a).Below (f' a)) :
    (x >>= f).Below (x >>= f') :=
  bind (refl x) hf

/-- What comes before something that is the same for both. -/
theorem before {x x' : Eval α} {f : α → Eval β} (hx : x.Below x') : (x >>= f).Below (x' >>= f) :=
  bind hx fun _ => refl _

theorem ite {c : Prop} [Decidable c] {x x' y y' : Eval α} (hx : x.Below x') (hy : y.Below y') :
    (if c then x else y).Below (if c then x' else y') := by
  split
  · exact hx
  · exact hy

theorem mapFailure {f : EvalState → Failure → Failure} {x x' : Eval α} (hx : x.Below x') :
    (mapFailure f x).Below (mapFailure f x') := by
  intro s
  unfold Eval.mapFailure
  obtain hout | heq := hx s
  · rw [hout]
    exact .inl rfl
  · rw [heq]
    exact .inr rfl

theorem framed {loc : Location} {tag : String} {x x' : Eval α} (hx : x.Below x') :
    (framed loc tag x).Below (framed loc tag x') :=
  mapFailure hx

theorem repeatUpTo {step step' : α → Eval (α ⊕ β)} (hstep : ∀ a, (step a).Below (step' a)) (n : Nat) :
    ∀ a, Below (repeatUpTo n step a) (repeatUpTo n step' a) := by
  induction n with
  | zero => exact fun _ _ => .inl rfl
  | succ n ih =>
    intro a s
    rw [Eval.repeatUpTo, Eval.repeatUpTo]
    obtain hout | heq := hstep a s
    · rw [hout]
      exact .inl rfl
    · rw [← heq]
      cases step a s with
      | done r t =>
        cases r with
        | inl a => exact ih a t
        | inr b => exact .inr rfl
      | failed e t => exact .inr rfl
      | outOfFuel => exact .inl rfl

theorem repeatTokens {step step' : α → Eval (α ⊕ β)} (hstep : ∀ a, (step a).Below (step' a)) (a : α) :
    (repeatTokens step a).Below (repeatTokens step' a) :=
  fun s => repeatUpTo hstep _ a s

theorem forIn {γ : Type} {f f' : γ → PUnit → Eval (ForInStep PUnit)} (xs : List γ)
    (hf : ∀ x u, (f x u).Below (f' x u)) : ∀ u, (forIn xs u f : Eval PUnit).Below (forIn xs u f') := by
  induction xs with
  | nil => exact fun _ => refl _
  | cons x xs ih =>
    intro u
    rw [List.forIn_cons, List.forIn_cons]
    refine bind (hf x u) fun r => ?_
    cases r with
    | done u => exact refl _
    | yield u => exact ih u

end Below

section Rules

variable {d d' : Deeper} [Calling d] [Calling d'] (hd : d.Below d')

include hd

/-! ## Bodies and imports -/

theorem below_interpret (c : ContainerId) : (interpret d c).Below (interpret d' c) := by
  unfold interpret
  refine .after fun h => ?_
  split
  · exact .refl _
  · exact .after fun _ => .before (.mapFailure (hd.body _ _ _ _))

theorem below_ensureReady (c : ContainerId) : (ensureReady d c).Below (ensureReady d' c) :=
  .before (below_interpret hd c)

theorem below_importDit (target importer : String) :
    (importDit d target importer).Below (importDit d' target importer) := by
  unfold importDit
  exact .after fun _ => .after fun _ => .after fun _ => .before (hd.body _ _ _ _)

theorem below_loadImport (path : Value) (loc : Location) :
    (loadImport d path loc).Below (loadImport d' path loc) := by
  unfold loadImport
  split
  · exact .after fun _ => .framed (below_importDit hd _ _)
  · exact .refl _

/-! ## Expressions -/

theorem below_continueExpression (v : Value) :
    (continueExpression d v).Below (continueExpression d' v) := by
  rw [continueExpression_eq, continueExpression_eq]
  refine .repeatTokens (fun v => ?_) v
  exact .after fun _ => .ite (.after fun _ => .before hd.term) (.refl _)

theorem below_expression : (expression d).Below (expression d') :=
  .bind hd.term fun v => below_continueExpression hd v

theorem below_expressionsUntil (close : Punct) (message : String) :
    (expressionsUntil d close message).Below (expressionsUntil d' close message) := by
  rw [expressionsUntil_eq, expressionsUntil_eq]
  refine .repeatTokens (fun values => ?_) []
  exact .after fun _ => .ite (.refl _) (.before (below_expression hd))

theorem below_arguments : (arguments d).Below (arguments d') :=
  .after fun _ => below_expressionsUntil hd _ _

/-! ## Paths -/

theorem below_containerMember (base : Value) (qualifier : Option ContainerId) (name : String) :
    (containerMember d base qualifier name).Below (containerMember d' base qualifier name) := by
  unfold containerMember
  refine .after fun _ => .after fun _ => ?_
  dsimp only
  split
  · exact .before (.framed (below_ensureReady hd _))
  · exact .refl _

theorem below_memberStep (o : Operand) : (memberStep d o).Below (memberStep d' o) := by
  unfold memberStep
  refine .after fun name => ?_
  split
  · exact .refl _
  · exact below_containerMember hd _ _ _
  · refine .after fun v => ?_
    split
    · exact .refl _
    · exact .after fun _ => .ite (.refl _) (below_containerMember hd _ _ _)
    · exact below_containerMember hd _ _ _

theorem below_callStep (o : Operand) : (callStep d o).Below (callStep d' o) := by
  unfold callStep
  refine .after fun callee => .after fun _ => .bind (below_arguments hd) fun args => ?_
  split
  · exact .after fun _ => .framed (hd.call _ _)
  · exact .ite (.before (.framed (below_ensureReady hd _))) (.refl _)
  · exact .refl _

theorem below_followPath (o : Operand) : (followPath d o).Below (followPath d' o) := by
  rw [followPath_eq, followPath_eq]
  refine .repeatTokens (fun o => .after fun t => ?_) o
  split
  · exact .before (below_memberStep hd o)
  · exact .before (below_callStep hd o)
  · exact .refl _

theorem below_operand : (operand d).Below (operand d') := by
  unfold operand
  refine .after fun _ => .after fun t => ?_
  split
  · exact below_followPath hd _
  · exact .refl _

/-! ## Types and definitions -/

theorem below_parseType : (parseType d).Below (parseType d') := by
  unfold parseType
  refine .after fun list => .ite (.after fun _ => ?_) ?_ <;>
  · refine .after fun t => ?_
    split
    · exact .refl _
    · exact .before (below_operand hd)
    · exact .refl _
    · exact .refl _

theorem below_parentClasses : (parentClasses d).Below (parentClasses d') := by
  rw [parentClasses_eq, parentClasses_eq]
  refine .after fun _ => .ite (.repeatTokens (fun parents => ?_) []) (.refl _)
  refine .after fun _ => .after fun t => ?_
  split
  · exact .before (below_operand hd)
  · exact .refl _
  · exact .refl _

theorem below_classDefinition (statement : Bool) :
    (classDefinition d statement).Below (classDefinition d' statement) := by
  unfold classDefinition
  refine .after fun _ => .after fun _ => .after fun name => .ite (.after fun _ => ?_) ?_ <;>
  · refine .bind (below_parentClasses hd) fun parents => .after fun view => .after fun body => ?_
    refine .after fun _ => .after fun c => .before (.forIn _ (fun parent _ => ?_) _)
    exact .before (.framed (below_ensureReady hd parent))

theorem below_parameters : (parameters d).Below (parameters d') := by
  rw [parameters_eq, parameters_eq]
  refine .after fun _ => .repeatTokens (fun params => .after fun _ => .ite (.refl _) ?_) []
  exact .before (below_parseType hd)

theorem below_funcLang : (funcLang d).Below (funcLang d') := by
  unfold funcLang
  refine .after fun t => ?_
  split
  · exact .refl _
  · exact .before (below_operand hd)
  · exact .refl _
  · exact .refl _

theorem below_returnType : (returnType d).Below (returnType d') :=
  .after fun _ => .ite (.refl _) (.before (below_parseType hd))

theorem below_funcDefinition (statement : Bool) :
    (funcDefinition d statement).Below (funcDefinition d' statement) := by
  unfold funcDefinition
  refine .after fun _ => .after fun _ => .bind (below_funcLang hd) fun lang => ?_
  refine .bind (below_returnType hd) fun ret => .after fun name => .ite (.after fun _ => ?_) ?_ <;>
  exact .after fun _ => .ite (.after fun _ => .before (below_parameters hd))
    (.before (below_parameters hd))

theorem below_langDefinition : (langDefinition d).Below (langDefinition d') := by
  unfold langDefinition
  refine .after fun _ => .after fun _ => .after fun word => ?_
  split
  · exact .refl _
  · refine .after fun _ => .after fun _ => .after fun _ => .after fun lang => ?_
    exact .before (.framed (below_ensureReady hd lang))

/-! ## Terms -/

theorem below_listLiteral : (listLiteral d).Below (listLiteral d') :=
  .after fun _ => .before (below_expressionsUntil hd _ _)

theorem below_jsonLiteral : (jsonLiteral d).Below (jsonLiteral d') := by
  rw [jsonLiteral_eq, jsonLiteral_eq]
  refine .after fun _ => .before (.repeatTokens (fun entries => .after fun _ => .ite (.refl _) ?_) _)
  refine .after fun key => .after fun _ => .ite (.refl _) ?_
  exact .after fun _ => .before (below_expression hd)

theorem below_anonymousTail (v : Value) : (anonymousTail d v).Below (anonymousTail d' v) :=
  .after fun _ => .before (below_followPath hd _)

theorem below_term : (term d).Below (term d') := by
  unfold term
  refine .after fun t => ?_
  split
  · exact .refl _
  · exact .refl _
  · exact .refl _
  · exact .refl _
  · exact .refl _
  · exact .refl _
  · exact below_listLiteral hd
  · exact below_jsonLiteral hd
  · exact .bind (below_classDefinition hd false) fun v => below_anonymousTail hd v
  · exact .bind (below_funcDefinition hd false) fun v => below_anonymousTail hd v
  · refine .after fun _ => .bind hd.term fun path => .bind (below_loadImport hd path _) fun dit => ?_
    exact .before (below_followPath hd _)
  · exact .before (below_operand hd)
  · exact .refl _
  · exact .refl _

/-! ## Statements -/

theorem below_declarationTarget : (declarationTarget d).Below (declarationTarget d') := by
  unfold declarationTarget
  refine .after fun t => ?_
  split
  · exact .refl _
  · refine .after fun _ => .after fun _ => .ite ?_ (.refl _)
    split
    · exact .refl _
    · refine .after fun h => .repeatTokens (fun base => .after fun word => .after fun _ => ?_) _
      exact .ite (.before (below_containerMember hd _ _ _)) (.refl _)

theorem below_declarationRest (declared : Declared) :
    (declarationRest d declared).Below (declarationRest d' declared) := by
  unfold declarationRest
  refine .after fun _ => .bind (below_declarationTarget hd) fun target => .after fun _ => ?_
  exact .after fun _ => .ite (.after fun _ => .before (below_expression hd)) (.refl _)

theorem below_valueStatement : (valueStatement d).Below (valueStatement d') := by
  unfold valueStatement
  refine .bind (below_operand hd) fun o => .after fun t => ?_
  refine .ite (.after fun cls => ?_) (.after fun cls => ?_) <;>
  · cases cls with
    | some c => exact below_declarationRest hd _
    | none =>
      refine .after fun _ => .ite (.after fun _ => .before (below_expression hd)) ?_
      exact .after fun v => .before (below_continueExpression hd v)

theorem below_importNames (path : Value) (loc : Location) :
    (importNames d path loc).Below (importNames d' path loc) :=
  .before (below_loadImport hd path loc)

theorem below_importStatement : (importStatement d).Below (importStatement d') := by
  unfold importStatement
  refine .after fun _ => .after fun _ => .after fun t => .ite ?_ ?_
  · refine .after fun _ => .after fun _ => .ite ?_ ?_
    · refine .after fun _ => .after fun _ => .bind (below_expression hd) fun path => ?_
      exact .before (below_loadImport hd path _)
    · refine .after fun h => .after fun r => ?_
      split
      · exact .refl _
      · refine .bind (below_followPath hd _) fun o => .after fun v => ?_
        exact .bind (below_continueExpression hd v) fun path => below_importNames hd path _
  · exact .bind (below_expression hd) fun path => below_importNames hd path _

theorem below_returnStatement : (returnStatement d).Below (returnStatement d') := by
  unfold returnStatement
  refine .after fun _ => .ite (.refl _) (.after fun _ => .after fun r => .ite (.refl _) ?_)
  exact .before (below_expression hd)

theorem below_throwStatement : (throwStatement d).Below (throwStatement d') :=
  .after fun _ => .before (below_expression hd)

theorem below_expressionStatement : (expressionStatement d).Below (expressionStatement d') :=
  .before (below_expression hd)

theorem below_plainStatement (t : Token) : (plainStatement d t).Below (plainStatement d' t) := by
  unfold plainStatement
  split
  · exact .bind (below_parseType hd) fun declared => below_declarationRest hd declared
  · exact .bind (below_parseType hd) fun declared => below_declarationRest hd declared
  · exact below_valueStatement hd
  · exact .before (below_classDefinition hd true)
  · exact .before (below_funcDefinition hd true)
  · exact below_langDefinition hd
  · exact below_importStatement hd
  · exact .refl _
  · exact .after fun _ => .ite (below_expressionStatement hd) (.refl _)

theorem below_statement : (statement d).Below (statement d') := by
  unfold statement
  refine .after fun t => ?_
  split
  · exact below_returnStatement hd
  · exact below_throwStatement hd
  · exact .before (below_plainStatement hd t)

theorem below_statements : (statements d).Below (statements d') := by
  rw [statements_eq, statements_eq]
  refine .repeatTokens (fun _ => .after fun _ => .after fun t => ?_) ()
  split
  · exact .refl _
  · exact .refl _
  · exact .before (below_statement hd)

theorem below_runBody (c : ContainerId) (path : String) (view : View) (fragment : Bool) :
    (runBody d c path view fragment).Below (runBody d' c path view fragment) := by
  intro s
  unfold runBody
  obtain hout | heq := below_statements hd (s.enter c path view fragment)
  · rw [hout]
    exact .inl rfl
  · rw [heq]
    exact .inr rfl

end Rules

end Eval

/-- What is done outside of the text that is read, at every level. -/
structure Outside where
  body : Nat → ContainerId → String → View → Bool → Eval BodyResult
  call : Nat → ContainerId → List Value → Eval Value

namespace Outside

open Eval

/-- A term, at most so many levels deep. -/
def termBy (o : Outside) : Nat → Eval Value
  | 0 => Eval.outOfFuel
  | n + 1 => @term ⟨n, o.termBy n, o.body n⟩ ⟨o.call n⟩

/-- One level deeper than a source. -/
def level (o : Outside) (n : Nat) : Deeper :=
  ⟨n, o.termBy n, o.body n⟩

/-- The body of a source whose terms may be so many levels deep. -/
def source (o : Outside) (n : Nat) (c : ContainerId) (path : String) (view : View) (fragment : Bool) :
    Eval BodyResult :=
  @runBody (o.level n) ⟨o.call n⟩ c path view fragment

/-- What the evaluator itself does. -/
def evaluator : Outside where
  body := bodyAt
  call n := callFunction ⟨n, termAt n, bodyAt n⟩

/-- Everything outside is refused. -/
def refusing : Outside where
  body _ _ _ _ _ := fail (.io "")
  call _ _ _ := fail (.io "")

/-- Nothing outside ever ends. -/
def silent : Outside where
  body _ _ _ _ _ := Eval.outOfFuel
  call _ _ _ := Eval.outOfFuel

theorem termBy_evaluator (n : Nat) : evaluator.termBy n = termAt n := by
  induction n with
  | zero => rfl
  | succ n ih =>
    -- How functions are called does not depend on the term that is replaced.
    have hterm : ∀ x, x = termAt n →
        @term ⟨n, x, bodyAt n⟩ ⟨callFunction ⟨n, termAt n, bodyAt n⟩⟩ = termAt (n + 1) := by
      rintro _ rfl
      rfl
    exact hterm _ ih

end Outside

namespace Eval

open Outside

variable {n : Nat} {c : ContainerId} {path : String} {view : View} {fragment : Bool} {s : EvalState}

theorem bodyAt_succ (n : Nat) (c : ContainerId) (path : String) (view : View) (fragment : Bool) :
    bodyAt (n + 1) c path view fragment = evaluator.source n c path view fragment := by
  have hsource : ∀ x, x = termAt n → bodyAt (n + 1) c path view fragment =
      @runBody ⟨n, x, bodyAt n⟩ ⟨callFunction ⟨n, termAt n, bodyAt n⟩⟩ c path view fragment := by
    rintro _ rfl
    rfl
  exact hsource _ (termBy_evaluator n)

/-- A source calls no function and runs no other body: whatever is outside, it ends in the same way. -/
def SelfContained (n : Nat) (c : ContainerId) (path : String) (view : View) (fragment : Bool)
    (s : EvalState) : Prop :=
  ∀ o : Outside, o.source n c path view fragment s = bodyAt (n + 1) c path view fragment s

theorem silent_below (o : Outside) (n : Nat) :
    @Deeper.Below (silent.level n) (o.level n) ⟨silent.call n⟩ ⟨o.call n⟩ := by
  induction n with
  | zero =>
    exact @Deeper.Below.mk _ _ ⟨_⟩ ⟨_⟩ (.refl _) (fun _ _ _ _ => .outOfFuel _) fun _ _ => .outOfFuel _
  | succ n ih =>
    refine @Deeper.Below.mk _ _ ⟨_⟩ ⟨_⟩ ?_ (fun _ _ _ _ => .outOfFuel _) fun _ _ => .outOfFuel _
    exact @below_term _ _ ⟨silent.call n⟩ ⟨o.call n⟩ ih

/-- A source that ends although nothing outside does has asked for nothing there. -/
theorem selfContained_of_silent
    (hsilent : silent.source n c path view fragment s ≠ .outOfFuel) :
    SelfContained n c path view fragment s := by
  have hsame (o : Outside) : silent.source n c path view fragment s =
      o.source n c path view fragment s := by
    have hbelow := @below_runBody _ _ ⟨silent.call n⟩ ⟨o.call n⟩ (silent_below o n)
    exact (hbelow c path view fragment s).resolve_left hsilent
  intro o
  rw [bodyAt_succ, ← hsame o, ← hsame evaluator]

/-- Where everything outside is refused, a term only runs out of fuel when it is nested too deeply. -/
theorem refusing_answering (n : Nat) :
    @Deeper.Answering (fun _ _ => True) False n (refusing.level n) ⟨refusing.call n⟩ := by
  induction n with
  | zero =>
    refine @Deeper.Answering.mk _ _ _ _ ⟨_⟩ ⟨Heap.upheld_true, ?_, ?_⟩ ?_
    · exact fun s _ hw => absurd (hw not_false) (Nat.not_lt_zero _)
    · exact fun _ _ _ _ _ _ => proceeds_fail _
    · exact fun _ _ _ => proceeds_fail _
  | succ n ih =>
    refine @Deeper.Answering.mk _ _ _ _ ⟨_⟩ ⟨Heap.upheld_true, ?_, ?_⟩ ?_
    · exact fun s _ hw => @proceeds_term _ _ _ _ _ ⟨refusing.call n⟩ ih hw
    · exact fun _ _ _ _ _ _ => proceeds_fail _
    · exact fun _ _ _ => proceeds_fail _

/-- Where everything outside is refused, every source ends. -/
theorem source_refusing_ends (hn : view.bytes.length < n) :
    refusing.source n c path view fragment s ≠ .outOfFuel := by
  have hl := @proceeds_runBody (fun _ _ => True) False s _ n ⟨refusing.call n⟩ (refusing_answering n)
    c trivial path view fragment (fun _ => hn) trivial
  intro hout
  unfold Outside.source at hout
  rw [hout] at hl
  exact hl

theorem selfContained_iff (hn : view.bytes.length < n) : SelfContained n c path view fragment s ↔
    silent.source n c path view fragment s ≠ .outOfFuel := by
  refine ⟨fun hself => ?_, selfContained_of_silent⟩
  rw [hself, ← hself refusing]
  exact source_refusing_ends hn

end Eval
end Ditlang
