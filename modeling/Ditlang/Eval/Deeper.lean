import Ditlang.Eval.Operand

/-!
# Ditlang.Eval.Deeper

What the evaluator does one level deeper than where it stands: evaluate a term inside another one,
and run a body. Every rule of the evaluator takes this as an argument, so none of them recurses;
the recursion over levels is tied once, at the end.
-/

namespace Ditlang

open Source (View)

/-- How a body ended, and the value of its last expression statement. -/
structure BodyResult where
  signal : Signal
  lastValue : Option Value

/-- The evaluator one level deeper. -/
structure Deeper where
  /-- How many rounds a conversation with a guest worker may take. -/
  rounds : Nat
  term : Eval Value
  /-- Runs the statements of a body in a container; the last argument marks a fragment. -/
  body : ContainerId → String → View → Bool → Eval BodyResult

namespace Eval

/-- Fails because nothing caught a thrown value. -/
def uncaught {α : Type} (v : Value) : Eval α := do
  raise { kind := .thrown, message := "Uncaught throw: " ++ (← render v) }

/-- Whether the body of a container waits to be interpreted, and that body. -/
def waitingBody? (h : Heap) (c : ContainerId) : Option Body :=
  match (h.container c).body with
  | some b => if b.interpreted then none else some b
  | none => none

/-- How a trace names the body of a container. -/
def bodyTag (h : Heap) (c : ContainerId) : String :=
  match (h.container c).kind with
  | .lang => "lang " ++ h.nameOf c
  | _ => "class " ++ h.nameOf c

/-- Interprets the body of a class or a Lang, unless that was begun before. -/
def interpret (d : Deeper) (c : ContainerId) : Eval Unit := do
  let h ← heap
  match waitingBody? h c with
  | none => pure ()
  | some b =>
    setHeap (h.modifyContainer c fun container =>
      { container with body := some { b with interpreted := true } })
    let result ← mapFailure (fun _ e => e.traced b.path b.defLoc (bodyTag h c))
      (d.body c b.path b.view false)
    match result.signal with
    | .thrown v => uncaught v
    | _ => pure ()

/-- Interprets the body of a class or a Lang when it is needed for the first time. -/
def ensureReady (d : Deeper) (c : ContainerId) : Eval Unit := do
  interpret d c
  note (.ready c)

end Eval
end Ditlang
