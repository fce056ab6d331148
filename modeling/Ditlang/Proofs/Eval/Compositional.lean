import Ditlang.Eval.Statements
import Ditlang.Proofs.Eval.Yields
import Ditlang.Proofs.Heap.Signatures

/-!
# Ditlang.Proofs.Eval.Compositional

Properties of computations that hold of a whole as soon as they hold of its parts.

A property is `Compositional` when it is closed under the operators of which the evaluator is made:
sequence, access to the state, changes of the store, scanning and loops. What is left are the three ways
to go deeper: a term, a body and a call. Of a `Deeper` that `Has` a compositional property the whole
evaluator has it, one lemma for each of its rules.

The rules know three things that not every computation does. The guest workers are left alone: a change
of the session keeps its daemon. Whether a fragment is read is only asked where the answer for a
fragment is the more permissive one (`Widens`). And what functions are declared with stays: if all
functions of the store have a property `F`, which definitions give them, then they have it after each
change of the store.
-/

namespace Ditlang

open Source (Location View Feed)

def Reading.asFragment (r : Reading) : Reading := { r with fragment := true }

theorem Reading.asFragment_eq {r : Reading} (h : r.fragment = true) : r.asFragment = r := by
  cases r
  cases h
  rfl

def EvalState.asFragment (s : EvalState) : EvalState := { s with reading := s.reading.asFragment }

/-- Nothing happened to the guest workers, running or to be started. -/
structure Session.SameGuests (s s' : Session) : Prop where
  daemon : s'.daemon = s.daemon
  launcher : s'.launcher = s.launcher
  tmpDir : s'.tmpDir = s.tmpDir

namespace Eval

/-- What is done with a reading succeeds with the reading of a fragment too, in the same way. -/
def Widens {α : Type} (f : Reading → Eval α) : Prop :=
  ∀ s a t, f s.reading s = .done a t → f s.reading.asFragment s = .done a t

theorem Widens.of_program {α : Type} {f : Reading → Eval α}
    (h : ∀ s a t, s.reading.fragment = false → f s.reading s = .done a t →
      f s.reading.asFragment s = .done a t) : Widens f := by
  intro s a t hs
  cases hf : s.reading.fragment with
  | false => exact h s a t hf hs
  | true =>
    rw [Reading.asFragment_eq hf]
    exact hs

/-- What a fragment does differently never succeeds in a program. -/
theorem Widens.of_never {α : Type} {f : Reading → Eval α}
    (h : ∀ r, f r.asFragment = f r ∨ ∀ s a t, f r s ≠ .done a t) : Widens f := by
  intro s a t hs
  rcases h s.reading with h | h
  · rw [h]
    exact hs
  · exact absurd hs (h s a t)

/-- A property of computations that is closed under the operators of the evaluator, as long as all
functions of the store have the property `F`. What comes after a part may rely on what that yields. -/
structure Compositional (F : FuncData → Prop) (P : ∀ {α : Type}, Eval α → Prop) : Prop where
  lasting : FuncData.Lasting F
  pure : ∀ {α : Type} (a : α), P (Pure.pure a : Eval α)
  bindOf : ∀ {α β : Type} {Q : α → Prop} {x : Eval α} {f : α → Eval β}, P x →
    (∀ s : EvalState, s.session.heap.EachFunc F → Yields s x fun a _ => Q a) →
    (∀ a, Q a → P (f a)) → P (x >>= f)
  fail : ∀ {α : Type} (e : Failure), P (Eval.fail e : Eval α)
  outOfFuel : ∀ {α : Type}, P (Eval.outOfFuel : Eval α)
  gets : ∀ {α : Type} {f : EvalState → α}, (∀ s, f s.asFragment = f s) → P (Eval.gets f)
  reading : ∀ {α : Type} {f : Reading → Eval α}, (∀ r, P (f r)) → Widens f →
    P (Eval.reading >>= f)
  modifySession : ∀ {f : Session → Session}, (∀ s : Session, s.SameGuests (f s)) →
    (∀ s : Session, (f s).heap = s.heap) → P (Eval.modifySession f)
  setHeap : ∀ {h : Heap}, h.EachFunc F → P (Eval.setHeap h)
  modifyReading : ∀ {f : Reading → Reading}, (∀ r, f r.asFragment = (f r).asFragment) →
    P (Eval.modifyReading f)
  withHeap : ∀ {α : Type} {f : Heap → α × Heap},
    (∀ h : Heap, h.EachFunc F → (f h).2.EachFunc F) → P (Eval.withHeap f)
  advance : ∀ resolveNames, P (Eval.advance resolveNames)
  scan : ∀ {α : Type} (f : Feed → Except LexError α × Feed), P (Eval.scan f)
  mapFailure : ∀ {α : Type} {x : Eval α} (f : EvalState → Failure → Failure), P x →
    P (Eval.mapFailure f x)
  repeatTokens : ∀ {α β : Type} {step : α → Eval (α ⊕ β)}, (∀ a, P (step a)) → ∀ a,
    P (Eval.repeatTokens step a)

end Eval

/-- The evaluator one level deeper has a property. It never succeeds with a term where a body ends. -/
structure Deeper.Has (P : ∀ {α : Type}, Eval α → Prop) (d : Deeper) : Prop where
  term : P d.term
  body : ∀ c path view fragment, P (d.body c path view fragment)
  call : ∀ func args, P (Eval.callFunction d func args)
  atEnd : ∀ s v t, d.term s = .done v t → s.reading.next.kind ≠ .eof

namespace Eval.Compositional

variable {α β : Type} {F : FuncData → Prop} {P : ∀ {α : Type}, Eval α → Prop} {d : Deeper}

theorem of_ite {c : Prop} [Decidable c] {x y : Eval α} (hx : P x) (hy : P y) :
    P (if c then x else y) := by
  split
  · exact hx
  · exact hy

section Rules

variable (hP : Compositional F P)

include hP

theorem bind {x : Eval α} {f : α → Eval β} (hx : P x) (hf : ∀ a, P (f a)) : P (x >>= f) :=
  hP.bindOf (Q := fun _ => True) hx (fun _ _ _ _ _ => trivial) fun a _ => hf a

theorem when {c : Prop} [Decidable c] {x : Eval Unit} {k : Unit → Eval β} (hx : P x)
    (hk : ∀ u, P (k u)) : P (if c then x >>= k else k ()) :=
  of_ite (hP.bind hx hk) (hk ())

theorem bind_ite {c : Prop} [Decidable c] {x y : Eval α} {k : α → Eval β} (hx : P x) (hy : P y)
    (hk : ∀ a, P (k a)) : P (if c then x >>= k else y >>= k) :=
  of_ite (hP.bind hx hk) (hP.bind hy hk)

theorem discard {x : Eval α} (hx : P x) : P (Functor.discard x) :=
  hP.bind hx fun _ => hP.pure _

theorem forIn {f : α → PUnit → Eval (ForInStep PUnit)} (hf : ∀ a u, P (f a u)) (xs : List α)
    (u : PUnit) : P (ForIn.forIn xs u f) := by
  induction xs generalizing u with
  | nil => exact hP.pure _
  | cons x xs ih =>
    rw [List.forIn_cons]
    refine hP.bind (hf x u) fun r => ?_
    cases r with
    | done u => exact hP.pure _
    | yield u => exact ih u

theorem readingAlike {f : Reading → Eval α} (hf : ∀ r, P (f r))
    (halike : ∀ r, f r.asFragment = f r) : P (Eval.reading >>= f) := by
  refine hP.reading hf fun s a t h => ?_
  rw [halike]
  exact h

theorem heap : P Eval.heap := hP.gets fun _ => rfl

theorem session : P Eval.session := hP.gets fun _ => rfl

theorem next : P Eval.next := hP.gets fun _ => rfl

theorem curr : P Eval.curr := hP.gets fun _ => rfl

theorem nextIs (kind : TokenKind) : P (Eval.nextIs kind) := hP.gets fun _ => rfl

theorem nextIsPunct (p : Punct) : P (Eval.nextIsPunct p) := hP.nextIs _

theorem note (e : BodyEvent) : P (Eval.note e) :=
  hP.modifySession (fun _ => ⟨rfl, rfl, rfl⟩) fun _ => rfl

theorem raise (d : Diagnostic) : P (Eval.raise d : Eval α) := hP.fail _

theorem malformedAt (message : String) (loc : Location) : P (Eval.malformedAt message loc : Eval α) :=
  hP.fail _

theorem ofDiagnostic (x : Except Diagnostic α) : P (Eval.ofDiagnostic x) := by
  cases x with
  | ok a => exact hP.pure a
  | error d => exact hP.raise d

theorem ofHeap (x : Except HeapFault α) : P (Eval.ofHeap x) := hP.ofDiagnostic _

theorem ofHeapAt (loc : Location) (x : Except HeapFault α) : P (Eval.ofHeapAt loc x) :=
  hP.ofDiagnostic _

theorem ofOption (x : Option α) : P (Eval.ofOption x) := by
  cases x with
  | some a => exact hP.pure a
  | none => exact hP.outOfFuel

theorem framed (loc : Location) (tag : String) {x : Eval α} (hx : P x) :
    P (Eval.framed loc tag x) :=
  hP.mapFailure _ hx

/-! ## The store -/

/-- What comes after a look at the store relies on its functions. -/
theorem bind_heap {f : Heap → Eval β} (hf : ∀ h : Heap, h.EachFunc F → P (f h)) :
    P (Eval.heap >>= f) := by
  refine hP.bindOf hP.heap ?_ hf
  rintro s hs _ _ ⟨⟩
  exact hs

theorem bind_mapError {ε : Type} {g : ε → Diagnostic} {x : Except ε α} {f : α → Eval β}
    (hf : ∀ a, x = .ok a → P (f a)) : P (Eval.ofDiagnostic (x.mapError g) >>= f) := by
  refine hP.bindOf (hP.ofDiagnostic _) ?_ hf
  intro s _ a t hdone
  cases x with
  | ok b =>
    cases hdone
    rfl
  | error e => cases hdone

theorem bind_ofHeap {x : Except HeapFault α} {f : α → Eval β} (hf : ∀ a, x = .ok a → P (f a)) :
    P (Eval.ofHeap x >>= f) :=
  hP.bind_mapError hf

theorem bind_ofHeapAt {loc : Location} {x : Except HeapFault α} {f : α → Eval β}
    (hf : ∀ a, x = .ok a → P (f a)) : P (Eval.ofHeapAt loc x >>= f) :=
  hP.bind_mapError hf

/-- The store after an operation that does not make functions. -/
theorem setFuncsFrom {h h' : Heap} (he : h.EachFunc F) (hf : h.FuncsFrom h') : P (Eval.setHeap h') :=
  hP.setHeap (he.mono hP.lasting hf)

theorem withFuncsFrom {f : Heap → α × Heap} (hf : ∀ h : Heap, h.FuncsFrom (f h).2) :
    P (Eval.withHeap f) :=
  hP.withHeap fun h he => he.mono hP.lasting (hf h)

/-! ## Reading -/

theorem failAtNext (message : String) : P (Eval.failAtNext message : Eval α) :=
  hP.bind hP.next fun _ => hP.malformedAt _ _

theorem failAfterCurr (message : String) : P (Eval.failAfterCurr message : Eval α) :=
  hP.bind hP.curr fun _ => hP.malformedAt _ _

/-- At the end of a body a program fails and a fragment goes on. -/
theorem expectTerminal : P Eval.expectTerminal := by
  unfold Eval.expectTerminal
  refine hP.reading (fun r => ?_) (.of_never fun r => ?_)
  · split
    · exact hP.pure _
    · exact of_ite (hP.pure _) (hP.failAfterCurr _)
    · exact hP.failAfterCurr _
  · dsimp only [Reading.asFragment]
    split
    · exact .inl rfl
    · rename_i hk
      by_cases hf : r.fragment = true
      · exact .inl (if_pos hf).symm
      · simp only [hk, if_neg hf]
        refine .inr fun s a t h => ?_
        cases h
    · exact .inl rfl

theorem undeclared (t : Token) : P (Eval.undeclared t : Eval α) := hP.malformedAt _ _

theorem captureBody (what : String) : P (Eval.captureBody what) := by
  unfold Eval.captureBody
  refine hP.bind (hP.nextIsPunct _) fun _ => of_ite ?_ (hP.failAfterCurr _)
  exact hP.bind (hP.scan _) fun _ => hP.bind (hP.advance _) fun _ => hP.pure _

theorem stringLiteral : P Eval.stringLiteral := by
  unfold Eval.stringLiteral
  refine hP.bind (hP.nextIsPunct _) fun _ => ?_
  refine hP.bind (hP.scan _) fun _ => hP.bind (hP.advance _) fun _ => ?_
  exact hP.bind (hP.advance _) fun _ => hP.pure _

theorem bodySource (view : View) (defLoc : Location) : P (Eval.bodySource view defLoc) :=
  hP.readingAlike (fun _ => hP.pure _) fun _ => rfl

theorem checkNewName (name : Option String) (what : String) (loc : Location) :
    P (Eval.checkNewName name what loc) := by
  unfold Eval.checkNewName
  split
  · exact hP.malformedAt _ _
  · refine hP.bind hP.heap fun _ => hP.readingAlike (fun _ => ?_) fun _ => rfl
    exact of_ite (hP.malformedAt _ _) (hP.pure _)

theorem declareIn (owner : ContainerId) (name : String) (declared : Declared) (loc : Location) :
    P (Eval.declareIn owner name declared loc) := by
  unfold Eval.declareIn
  refine hP.bind_heap fun h he => hP.bind_ofHeapAt fun _ hok => ?_
  exact hP.bind (hP.setFuncsFrom he (Heap.funcsFrom_declare hok)) fun _ => hP.pure _

theorem assignSlot (s : SlotId) (v : Value) : P (Eval.assignSlot s v) :=
  hP.bind_heap fun _ he => hP.bind_ofHeap fun _ hok =>
    hP.setFuncsFrom he ((Heap.funcsFrom_assign hok).trans (Heap.funcsFrom_warmAll _))

theorem bindName (name : String) (ty : TypeSpec) (v : Value) (loc : Location) :
    P (Eval.bindName name ty v loc) := by
  unfold Eval.bindName
  refine hP.readingAlike (fun _ => ?_) fun _ => rfl
  exact hP.bind (hP.declareIn _ _ _ _) fun _ => hP.assignSlot _ _

theorem render (v : Value) : P (Eval.render v) :=
  hP.bind hP.heap fun _ => hP.ofOption _

/-! ## Operands -/

theorem read (o : Operand) : P (Eval.read o) := by
  unfold Eval.read
  refine hP.bind hP.heap fun _ => ?_
  split
  · exact hP.pure _
  · exact hP.bind hP.curr fun _ => hP.malformedAt _ _

theorem rootMap (root : JsonRoot) : P (Eval.rootMap root) := by
  unfold Eval.rootMap
  split
  · exact hP.pure _
  · refine hP.bind hP.heap fun _ => ?_
    split
    · exact hP.pure _
    · refine hP.bind (hP.withFuncsFrom fun _ => .of_containers rfl) fun _ => ?_
      exact hP.bind (hP.assignSlot _ _) fun _ => hP.pure _

theorem store (o : Operand) (v : Value) : P (Eval.store o v) := by
  unfold Eval.store
  split
  · exact hP.assignSlot _ _
  · exact hP.assignSlot _ _
  · refine hP.bind (hP.withFuncsFrom fun _ => ?_) fun _ => hP.assignSlot _ _
    exact Heap.funcsFrom_materialize _ _ _
  · refine hP.bind (hP.rootMap _) fun _ => ?_
    split
    · exact hP.raise _
    · refine hP.bind_heap fun h he => ?_
      split
      · rename_i hok
        exact hP.setFuncsFrom he (.of_containers (Heap.containers_storeKeys hok))
      · exact hP.raise _
  · exact hP.bind hP.curr fun _ => hP.malformedAt _ _
  · exact hP.bind hP.curr fun _ => hP.malformedAt _ _

/-! ## Parts of a call -/

theorem uncaught (v : Value) : P (Eval.uncaught v : Eval α) :=
  hP.bind (hP.render v) fun _ => hP.raise _

theorem builtin (b : Builtin) (args : List Value) : P (Eval.builtin b args) := by
  unfold Eval.builtin
  split
  · refine hP.bind (hP.render _) fun _ => ?_
    refine hP.bind (hP.modifySession ?_ fun _ => rfl) fun _ => hP.pure _
    exact fun _ => ⟨rfl, rfl, rfl⟩
  · exact hP.bind (hP.render _) fun _ => hP.pure _
  · refine hP.bind_heap fun h he => hP.bind_ofHeap fun _ hok => ?_
    refine hP.bind (hP.setFuncsFrom he ?_) fun _ => hP.pure _
    exact (Heap.funcsFrom_append hok).trans (Heap.funcsFrom_warmAll _)
  · exact hP.raise _
  · exact hP.raise _
  · split
    · exact hP.pure _
    · exact hP.bind hP.heap fun _ => hP.pure _
    · exact hP.bind hP.heap fun _ => hP.pure _
    · exact hP.bind hP.heap fun _ => hP.raise _
    · exact hP.pure _

theorem bodyOf (c : ContainerId) : P (Eval.bodyOf c) := by
  unfold Eval.bodyOf
  refine hP.bind hP.heap fun _ => ?_
  split
  · exact hP.pure _
  · exact hP.raise _

theorem claimFileName (fileOf : String → String) (base : String) :
    P (Eval.claimFileName fileOf base) := by
  unfold Eval.claimFileName
  refine hP.bind hP.session fun _ => ?_
  refine hP.bind (hP.modifySession ?_ fun _ => rfl) fun _ => hP.pure _
  exact fun _ => ⟨rfl, rfl, rfl⟩

theorem writeGuestFile (name contents : String) : P (Eval.writeGuestFile name contents) := by
  unfold Eval.writeGuestFile
  refine hP.bind hP.session fun _ => hP.bind (hP.modifySession ?_ fun _ => rfl) fun _ => ?_
  · exact fun _ => ⟨rfl, rfl, rfl⟩
  · split
    · exact hP.pure _
    · exact hP.fail _

theorem guestFile (func : ContainerId) {data : FuncData} (hdata : F data) (lang : ContainerId) :
    P (Eval.guestFile func data lang) := by
  unfold Eval.guestFile
  split
  · exact hP.pure _
  · refine hP.bind (hP.bodyOf _) fun _ => hP.bind hP.heap fun _ => hP.bind (hP.ofHeap _) fun _ => ?_
    refine hP.bind (hP.note _) fun _ => ?_
    refine hP.bind (hP.ofDiagnostic _) fun _ => hP.bind (hP.claimFileName _ _) fun _ => ?_
    refine hP.bind (hP.writeGuestFile _ _) fun path => hP.bind_heap fun h he => ?_
    refine hP.bind (hP.setHeap (he.modifyContainer ?_)) fun _ => hP.pure _
    have hmoved : (ContainerKind.func data).Becomes (.func { data with guestPath := some path }) :=
      .func rfl rfl rfl rfl
    rintro _ ⟨⟩
    exact hP.lasting.becomes hmoved hdata

theorem newFrame (func : ContainerId) (params : List Param) (args : List Value) :
    P (Eval.newFrame func params args) := by
  unfold Eval.newFrame
  refine hP.bind hP.heap fun _ => ?_
  refine hP.bind (hP.withFuncsFrom fun _ => Heap.funcsFrom_alloc (by rintro _ ⟨⟩)) ?_
  refine fun _ => hP.bind (hP.forIn (fun (_ : Param × Value) _ => ?_) _ _) fun _ => hP.pure _
  refine hP.bind_heap fun h he => hP.bind_ofHeap fun _ hok => ?_
  refine hP.bind (hP.setFuncsFrom he (Heap.funcsFrom_declare hok)) fun _ => ?_
  exact hP.bind (hP.assignSlot _ _) fun _ => hP.pure _

theorem loadSource (path : String) : P (Eval.loadSource path) := by
  unfold Eval.loadSource
  refine hP.bind hP.session fun _ => ?_
  refine hP.bind (hP.modifySession ?_ fun _ => rfl) fun _ => hP.ofDiagnostic _
  exact fun _ => ⟨rfl, rfl, rfl⟩

theorem checkedResult (ret : Option Declared) (v : Value) : P (Eval.checkedResult ret v) := by
  unfold Eval.checkedResult
  refine hP.bind_heap fun h he => hP.bind (hP.setFuncsFrom he (Heap.funcsFrom_warmAll _)) fun _ => ?_
  exact hP.bind hP.heap fun _ => hP.ofDiagnostic _

/-! ## Bodies that are run in the middle of something -/

section Bodies

variable (hbody : ∀ c path view fragment, P (d.body c path view fragment))

include hbody

theorem callback (frame : ContainerId) (code : String) : P (Eval.callback d frame code) := by
  unfold Eval.callback
  refine hP.bind hP.heap fun _ => hP.bind (hbody _ _ _ _) fun _ => ?_
  split
  · exact hP.pure _
  · exact hP.uncaught _
  · exact hP.pure _

theorem callDitlang (func frame : ContainerId) : P (Eval.callDitlang d func frame) := by
  unfold Eval.callDitlang
  refine hP.bind (hP.bodyOf _) fun _ => hP.bind (hbody _ _ _ _) fun _ => ?_
  split
  · exact hP.pure _
  · exact hP.pure _
  · exact hP.uncaught _

/-- A call is compositional when a call of a guest function is. -/
theorem callFunction
    (hguest : ∀ func data frame lang, F data → P (callGuest d func data frame lang))
    (func : ContainerId) (args : List Value) : P (Eval.callFunction d func args) := by
  unfold Eval.callFunction
  refine hP.bind_heap fun h he => ?_
  split
  · rename_i data hk
    refine hP.bind (hP.ofDiagnostic _) fun _ => ?_
    split
    · exact hP.builtin _ _
    · refine hP.bind (hP.newFrame _ _ _) fun _ => ?_
      split
      · exact hP.bind (hP.callDitlang hbody _ _) fun _ => hP.checkedResult _ _
      · refine hP.bind (hguest _ _ _ _ (he func data hk)) fun _ => hP.bind (hP.pure _) fun _ => ?_
        exact hP.checkedResult _ _
  · exact hP.raise _

theorem interpret (c : ContainerId) : P (Eval.interpret d c) := by
  unfold Eval.interpret
  refine hP.bind_heap fun h he => ?_
  split
  · exact hP.pure _
  · refine hP.bind (hP.setFuncsFrom he (.modifyContainer c (.same _))) fun _ => ?_
    refine hP.bind (hP.mapFailure _ (hbody _ _ _ _)) fun _ => ?_
    split
    · exact hP.uncaught _
    · exact hP.pure _

theorem ensureReady (c : ContainerId) : P (Eval.ensureReady d c) :=
  hP.bind (hP.interpret hbody c) fun _ => hP.note _

theorem importDit (target importer : String) : P (Eval.importDit d target importer) := by
  unfold Eval.importDit
  refine hP.bind hP.session fun _ => hP.bind (hP.loadSource _) fun _ => ?_
  refine hP.bind (hP.withFuncsFrom fun _ => Heap.funcsFrom_alloc (by rintro _ ⟨⟩)) fun _ => ?_
  refine hP.bind (hbody _ _ _ _) fun _ => ?_
  split
  · exact hP.uncaught _
  · exact hP.pure _

end Bodies

end Rules

end Eval.Compositional
end Ditlang
