import Ditlang.Eval.Statements

/-!
# Ditlang.Session.Run

Running programs and prompt input in a session. Whatever a program did before it failed stays done.
-/

namespace Ditlang

open Source (View Location)

namespace Session

/-- How many levels deep terms and bodies may be nested in each other. -/
def defaultFuel : Nat := 10000

/-- The result of running something in a session; none if the fuel did not reach. -/
abbrev Result (α : Type) := Option (Except Failure α × Session)

/-- Runs a source in the main dit, at most `fuel` levels deep. -/
def runMain (fuel : Nat) (s : Session) (view : View) (fragment : Bool) : Result (Option Value) :=
  let body : Body := { path := s.mainPath, view, defLoc := .start, interpreted := true }
  let s := { s with heap := s.heap.modifyContainer s.main ({ · with body := some body }) }
  let whole : Eval (Option Value) := do
    let result ← Eval.bodyAt fuel s.main s.mainPath view fragment
    match result.signal with
    | .normal => pure result.lastValue
    | .returned v => pure (some v)
    | .thrown v => Eval.uncaught v
  match whole { session := s, reading := .start s.main s.mainPath view fragment } with
  | .done v t => some (.ok v, t.session)
  | .failed e t => some (.error e, t.session)
  | .outOfFuel => none

/-- Runs a whole program in the main dit. -/
def evalSource (s : Session) (source : String) : Result Unit :=
  (s.runMain defaultFuel (.ofText source) false).map fun (result, s) =>
    (result.map fun _ => (), s)

/-- Runs the input of a prompt in the main dit, and yields the value of its last expression. -/
def evalLine (s : Session) (source : String) : Result (Option Value) :=
  s.runMain defaultFuel (.ofText source) true

def runFile (s : Session) (path : String) : Result Unit :=
  match s.host.load path with
  | (.error d, host) => some (.error (.diagnostic d), { s with host })
  | (.ok source, host) =>
    let s := { s with
      host
      mainPath := path
      heap := s.heap.modifyContainer s.main ({ · with name := some path }) }
    s.evalSource source

end Session
end Ditlang
