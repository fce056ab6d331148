import Ditlang.Heap.Fault
import Ditlang.Session.Basic

/-!
# Ditlang.Eval

Computations of the evaluator. Running one ends with a value, with a failure, or out of fuel; a
failure keeps the state it left, because what a program did before it failed stays done. The state
is the session and the body that is being read.
-/

namespace Ditlang

open Source (Location View Feed)

/-- The reading of one body: where it is scanned, and the last three tokens. -/
structure Reading where
  body : ContainerId
  path : String
  feed : Feed
  prev : Token
  curr : Token
  next : Token
  /-- Input of a prompt or of a callback: the last `;` may be left out, and the value of the last
  expression is kept. -/
  fragment : Bool
  lastValue : Option Value

namespace Reading

def start (body : ContainerId) (path : String) (view : View) (fragment : Bool) : Reading :=
  let t := Token.eof view.startLoc
  { body, path, feed := .ofView view, prev := t, curr := t, next := t, fragment, lastValue := none }

/-- Attaches the place in this body to a failure that has none yet. -/
def annotate (r : Reading) (e : Failure) : Failure :=
  e.mapDiagnostic fun d =>
    let loc := d.pending.getD r.curr.loc
    d.annotate r.path loc (r.feed.view.lineText loc.pos)

end Reading

structure EvalState where
  session : Session
  reading : Reading

/-- The state in which the statements of a body start to run. -/
def EvalState.enter (s : EvalState) (body : ContainerId) (path : String) (view : View)
    (fragment : Bool) : EvalState where
  session := s.session.note (.began ⟨body, path, view⟩)
  reading := .start body path view fragment

inductive Outcome (α : Type) where
  | done (a : α) (s : EvalState)
  | failed (e : Failure) (s : EvalState)
  | outOfFuel

def Eval (α : Type) : Type := EvalState → Outcome α

namespace Eval

variable {α β : Type}

protected def pure (a : α) : Eval α := fun s => .done a s

protected def bind (x : Eval α) (f : α → Eval β) : Eval β := fun s =>
  match x s with
  | .done a s => f a s
  | .failed e s => .failed e s
  | .outOfFuel => .outOfFuel

instance : Monad Eval where
  pure := Eval.pure
  bind := Eval.bind

theorem bind_assoc' {γ : Type} (x : Eval α) (f : α → Eval β) (g : β → Eval γ) :
    Eval.bind (Eval.bind x f) g = Eval.bind x fun a => Eval.bind (f a) g := by
  funext s
  simp only [Eval.bind]
  cases x s <;> rfl

theorem bind_pure' (x : Eval α) : Eval.bind x Eval.pure = x := by
  funext s
  simp only [Eval.bind]
  cases x s <;> rfl

instance : LawfulMonad Eval :=
  LawfulMonad.mk' Eval (fun x => bind_pure' x) (fun _ _ => rfl) bind_assoc'

theorem bind_apply (x : Eval α) (f : α → Eval β) (s : EvalState) :
    (x >>= f) s = Eval.bind x f s := rfl

/-- A sequence ends with a value exactly when both of its parts do. -/
theorem bind_eq_done_iff {x : Eval α} {f : α → Eval β} {b : β} {s t : EvalState} :
    (x >>= f) s = .done b t ↔ ∃ a u, x s = .done a u ∧ f a u = .done b t := by
  rw [bind_apply, Eval.bind]
  constructor
  · intro h
    split at h
    · rename_i a u hx; exact ⟨a, u, hx, h⟩
    · cases h
    · cases h
  · rintro ⟨a, u, hx, hf⟩
    rw [hx]
    exact hf

def outOfFuel : Eval α := fun _ => .outOfFuel

def fail (e : Failure) : Eval α := fun s => .failed e s

def raise (d : Diagnostic) : Eval α := fail (.diagnostic d)

def malformedAt (message : String) (loc : Location) : Eval α :=
  raise ((Diagnostic.malformed message).at_ loc)

def gets (f : EvalState → α) : Eval α := fun s => .done (f s) s

def session : Eval Session := gets (·.session)

def heap : Eval Heap := gets (·.session.heap)

def reading : Eval Reading := gets (·.reading)

/-- The token ahead. -/
def next : Eval Token := gets (·.reading.next)

/-- The token before the one ahead. -/
def curr : Eval Token := gets (·.reading.curr)

def modifySession (f : Session → Session) : Eval Unit := fun s =>
  .done () { s with session := f s.session }

def setHeap (h : Heap) : Eval Unit := modifySession ({ · with heap := h })

def modifyReading (f : Reading → Reading) : Eval Unit := fun s =>
  .done () { s with reading := f s.reading }

def note (e : BodyEvent) : Eval Unit := modifySession (·.note e)

def withHeap (f : Heap → α × Heap) : Eval α := fun s =>
  let (a, h) := f s.session.heap
  .done a { s with session := { s.session with heap := h } }

/-- The value of a result, or its diagnostic as a failure. -/
def ofDiagnostic (x : Except Diagnostic α) : Eval α :=
  match x with
  | .ok a => pure a
  | .error d => raise d

/-- The value of a result of the store, or its fault as a failure without a place. -/
def ofHeap (x : Except HeapFault α) : Eval α :=
  ofDiagnostic (x.mapError HeapFault.diagnostic)

/-- The value of a result of the store, or its fault as a failure at a place. -/
def ofHeapAt (loc : Location) (x : Except HeapFault α) : Eval α :=
  ofDiagnostic (x.mapError fun f => f.diagnostic.at_ loc)

/-- A value that there is, unless the fuel does not reach. -/
def ofOption (x : Option α) : Eval α :=
  match x with
  | some a => pure a
  | none => outOfFuel

/-- Changes the failure of a computation, seen from the state it leaves. -/
def mapFailure (f : EvalState → Failure → Failure) (x : Eval α) : Eval α := fun s =>
  match x s with
  | .failed e s => .failed (f s e) s
  | other => other

/-- Adds a trace frame of this body to failures that come out of another one. -/
def framed (loc : Location) (tag : String) (x : Eval α) : Eval α :=
  mapFailure (fun s e => e.traced s.reading.path loc tag) x

/-- Repeats a step with a changing argument until it returns; at most `n` times. -/
def repeatUpTo : Nat → (α → Eval (α ⊕ β)) → α → EvalState → Outcome β
  | 0, _, _, _ => .outOfFuel
  | n + 1, step, a, s =>
    match step a s with
    | .done (.inl a) s => repeatUpTo n step a s
    | .done (.inr b) s => .done b s
    | .failed e s => .failed e s
    | .outOfFuel => .outOfFuel

/-- Repeats a step that takes at least one token each time it does not return. The bytes that are
left bound the number of tokens; two more may have been scanned ahead. -/
def repeatTokens (step : α → Eval (α ⊕ β)) (a : α) : Eval β := fun s =>
  repeatUpTo (s.reading.feed.rest.length + 4) step a s

end Eval
end Ditlang
