import Ditlang.Guest.Fleet
import Ditlang.Prelude.Basic

/-!
# Ditlang.Session

Everything that lasts from one input to the next: the store, the main dit, the daemon of the guest
workers, the names of the guest files that were written, the host, and a log of the bodies that
were run.
-/

namespace Ditlang

open Source (View)

/-- How the statements of a body ended. -/
inductive Signal where
  | normal
  | returned (v : Value)
  | thrown (v : Value)
deriving DecidableEq, Repr

structure Activation where
  body : ContainerId
  path : String
  view : View

inductive BodyEvent where
  /-- The statements of a body start to run. -/
  | began (a : Activation)
  /-- They came to an end, to a return or to a throw. -/
  | finished (body : ContainerId) (signal : Signal)
  /-- A failure came out of them. -/
  | failed (body : ContainerId) (e : Failure)
  /-- A class or a Lang was needed, and counts as interpreted. -/
  | ready (body : ContainerId)
  /-- The text of a guest function is made ready for its file. -/
  | fenced (func : ContainerId) (path : String) (view : View)

structure Session where
  heap : Heap
  /-- The path of the main dit, as tracebacks show it and relative imports start from it. -/
  mainPath : String
  /-- The directory for guest files and drivers. -/
  tmpDir : String
  prelude : ContainerId
  main : ContainerId
  /-- How the first daemon starts workers, unless as commands. -/
  launcher : Option Guest.Launcher
  daemon : Option Guest.Daemon
  /-- The guest file names that functions have claimed. -/
  guestFiles : List String
  host : Host
  /-- What happened to bodies so far, latest first. It is only kept: nothing depends on it. -/
  log : List BodyEvent := []

namespace Session

def start (mainPath tmpDir : String) (launcher : Option Guest.Launcher) (host : Host) : Session :=
  let (prelude, h) := Prelude.install
  let (main, h) := h.alloc { name := some mainPath, kind := .dit, scope := some prelude }
  { heap := h, mainPath, tmpDir, prelude, main, launcher, daemon := none, guestFiles := [], host }

def note (s : Session) (e : BodyEvent) : Session :=
  { s with log := e :: s.log }

@[simp] theorem heap_note (s : Session) (e : BodyEvent) : (s.note e).heap = s.heap := rfl

/-- The value of a name, looked up from the main dit outward. -/
def get? (s : Session) (name : String) : Option Value :=
  (s.heap.findInScope? s.main name).map s.heap.value

/-- Starts the daemon if it does not run, and hands it over. -/
def ensureDaemon (s : Session) : Guest.Daemon × Session :=
  match s.daemon with
  | some d => (d, s)
  | none =>
    let d := Guest.Daemon.start (s.launcher.getD .commands) s.tmpDir
    (d, { s with daemon := some d, launcher := none })

def runJob (s : Session) (spec : Guest.LaunchSpec) (job : Guest.Job) :
    Option (Except Diagnostic Guest.Job × Session) :=
  let (d, s) := s.ensureDaemon
  (d.runJob spec job s.host).map fun (result, d, host) =>
    (result, { s with daemon := some d, host })

/-- Stops the daemon and its workers, if there are any. -/
def shutdown (s : Session) : Except Diagnostic Unit × Session :=
  match s.daemon with
  | none => (.ok (), s)
  | some d =>
    let (result, _, host) := d.shutdown s.host
    (result, { s with daemon := none, host })

/-- Lets the guest workers go on until none can move. -/
def settle (s : Session) : Session :=
  match s.daemon with
  | none => s
  | some d =>
    let (d, host) := d.settle s.host
    { s with daemon := some d, host }

/-- The first name among `base`, `base_2`, `base_3`, … whose file no function has claimed; at most
`n` are tried. -/
def freeFileName (s : Session) (fileOf : String → String) (base : String) : Nat → Nat → String
  | 0, _ => fileOf base
  | n + 1, suffix =>
    let stem := if suffix = 1 then base else base ++ "_" ++ toString suffix
    let name := fileOf stem
    if s.guestFiles.contains name then s.freeFileName fileOf base n (suffix + 1) else name

end Session
end Ditlang
