import Ditlang.Guest.Handle
import Ditlang.Host.Basic

/-!
# Ditlang.Guest.Fleet

Guest workers and the daemon they talk to, as one deterministic system. A worker follows a script:
it connects, announces its Lang, and then reads and sends lines. After every line the daemon takes
what happened and writes the pending job if it can. Workers run until each of them waits for a
line or has exited, so an answer never depends on timing.
-/

namespace Ditlang
namespace Guest

inductive Action where
  /-- Reads one line. -/
  | recv
  /-- Opens a second connection for the same Lang. -/
  | twin
  /-- Sends a text and a line break. -/
  | send (text : String)
deriving DecidableEq, Repr

/-- What a launch leads to. -/
inductive Script where
  | fails (reason : String)
  /-- A worker that exits without connecting. -/
  | silent
  /-- A worker that connects, greets and acts; with `again` it starts over after the last
  action. -/
  | plays (hello : Option String) (actions : List Action) (again : Bool)
deriving DecidableEq, Repr

/-- How workers are started: by the scripts that are left, or as commands of the host. -/
inductive Launcher where
  | scripted (scripts : List Script)
  | commands
deriving Repr

structure Worker where
  spec : LaunchSpec
  hello : String := ""
  actions : List Action := []
  todo : List Action := []
  again : Bool := false
  greeted : Bool := false
  /-- The open connection. -/
  key : Option Nat := none
  inbox : List String := []
  /-- The jobs that were written to the worker, oldest first. -/
  jobs : List Job := []
  exited : Bool := false
  /-- How often the worker was told to stop. -/
  terminated : Nat := 0
deriving Repr

namespace Worker

/-- The line with which a worker announces its Lang. -/
def greeting (lang : String) : String :=
  (Json.object [("type", .str "connect"), ("lang", .str lang)]).write

/-- The worker that a script makes of a launch. -/
def ofScript (spec : LaunchSpec) (hello : Option String) (actions : List Action)
    (again : Bool) : Worker :=
  { spec, hello := hello.getD (greeting spec.lang), actions, todo := actions, again }

end Worker

/-- Workers, the daemon, and what is needed to start more workers. -/
structure Fleet where
  launcher : Launcher
  tmpDir : String
  workers : Array Worker := #[]
  loop : Loop := {}
  tickets : Nat := 0
  /-- The jobs that were written and the replies that were taken, oldest first. -/
  talk : List Said := []

namespace Fleet

/-- The fleet together with the machine it runs on. -/
abbrev Site := Fleet × Host

def add (f : Fleet) (w : Worker) : Nat × Fleet :=
  (f.workers.size, { f with workers := f.workers.push w })

def modify (f : Fleet) (i : Nat) (g : Worker → Worker) : Fleet :=
  { f with workers := f.workers.modify i g }

/-- Starts a worker by the next script. -/
def launchScripted (spec : LaunchSpec) (scripts : List Script) (f : Fleet) :
    Except String Nat × Fleet :=
  let f := { f with launcher := .scripted scripts.tail }
  match scripts with
  | [] => (.error "no more workers", f)
  | .fails reason :: _ => (.error reason, f)
  | .silent :: _ =>
    let (i, f) := f.add { spec, exited := true }
    (.ok i, f)
  | .plays hello actions again :: _ =>
    let (i, f) := f.add (.ofScript spec hello actions again)
    (.ok i, f)

/-- Starts a worker as a command: its driver is written to a file first. -/
def launchCommand (spec : LaunchSpec) (f : Fleet) (h : Host) : Except String Nat × Site :=
  match h.writeInto f.tmpDir (spec.lang ++ "_guest_daemon." ++ spec.extension) spec.driver with
  | (.error e, h) => (.error e.message, f, h)
  | (.ok _, h) =>
    match h.startCommand spec.executable with
    | .error e => (.error e.message, f, h)
    | .ok () =>
      let (i, f) := f.add { spec, exited := true }
      (.ok i, f, h)

def launch (spec : LaunchSpec) : Site → Except String Nat × Site
  | (f, h) =>
    match f.launcher with
    | .commands => f.launchCommand spec h
    | .scripted scripts =>
      let h := h.record
        (.launch spec.lang spec.executable spec.extension (Text.byteLength spec.driver))
      let (result, f) := f.launchScripted spec scripts
      (result, f, h)

def terminate (i : Nat) : Site → Site
  | (f, h) => (f.modify i fun w => { w with exited := true, terminated := w.terminated + 1 }, h)

/-- Writes the pending job to its worker, if that is connected. -/
def dispatch (f : Fleet) : Fleet :=
  match f.loop.outgoing? with
  | none => f
  | some (key, job) =>
    match f.workers.findIdx? fun w => w.key == some key && !w.exited with
    | some i =>
      { f.modify i fun w => { w with inbox := w.inbox ++ [job.wire], jobs := w.jobs ++ [job] } with
        loop := f.loop.written
        talk := f.talk ++ [⟨key, job.lang, job.kind⟩] }
    | none => { f with loop := f.loop.unwritten key job "Broken pipe (os error 32)" }

def notice (f : Fleet) (e : Event) : Fleet :=
  { f with loop := f.loop.handle e, talk := f.talk ++ (f.loop.taken? e).toList }.dispatch

/-- Lets the daemon read one line of a connection. The first line has to announce a Lang. -/
def readLine (f : Fleet) (i key : Nat) (line : String) : Fleet :=
  if (f.loop.connections.lookup key).isSome then
    if (Text.trim line).isEmpty then f
    else
      match WorkerMessage.read? line with
      | some m => f.notice (.message key m)
      | none => f.notice (.malformed key line)
  else if f.loop.readers.contains key then
    match WorkerMessage.read? line with
    | some (.connect lang) =>
      let f := f.notice (.connected key lang)
      if f.loop.readers.contains key then f else f.modify i fun w => { w with key := none }
    | _ => (f.notice (.closed key)).modify i fun w => { w with key := none }
  else f

/-- Sends a text from a worker, line by line. -/
def sendText (f : Fleet) (i : Nat) (text : String) : Fleet :=
  ((text.toList.splitOn '\n').map String.ofList).foldl
    (fun f line =>
      match (f.workers[i]?).bind (·.key) with
      | some key => f.readLine i key line
      | none => f)
    f

/-- Ends a worker: its connection is closed. -/
def exit (f : Fleet) (i : Nat) (w : Worker) : Fleet :=
  let f := f.modify i fun w => { w with exited := true, key := none }
  match w.key with
  | some key => f.notice (.closed key)
  | none => f

/-- Connects a worker and greets. A worker that cannot connect exits. -/
def connect (f : Fleet) (i : Nat) (w : Worker) (reachable : Bool) : Fleet :=
  if reachable then
    let (key, loop) := f.loop.accept
    let f := { f with loop }.modify i fun w => { w with greeted := true, key := some key }
    f.sendText i w.hello
  else
    f.exit i w

/-- Lets one worker do its next step; none if it waits or has exited. -/
def stepWorker (i : Nat) (w : Worker) : Site → Option Site
  | (f, h) =>
    if w.exited then none
    else if !w.greeted then some (f.connect i w h.loopback, h)
    else
      match w.todo with
      | [] =>
        if w.again && !w.actions.isEmpty then
          some (f.modify i fun w => { w with todo := w.actions }, h)
        else
          some (f.exit i w, h)
      | .recv :: rest =>
        match w.key, w.inbox with
        | none, _ => some (f.exit i w, h)
        | some _, [] => none
        | some _, line :: more =>
          some (f.modify i fun w => { w with inbox := more, todo := rest }, h.record (.recv line))
      | .twin :: rest =>
        let f := f.modify i fun w => { w with todo := rest }
        let (key, loop) := f.loop.accept
        some ({ f with loop }.notice (.connected key w.spec.lang), h)
      | .send text :: rest =>
        some ((f.modify i fun w => { w with todo := rest }).sendText i text, h)

/-- Lets the first worker that can move do its next step. -/
def step (s : Site) : Option Site :=
  s.1.workers.toList.zipIdx.findSome? fun (w, i) => stepWorker i w s

/-- Runs the workers until none can move; none if that takes more than `n` steps. -/
def quiesce : Nat → Site → Option Site
  | 0, _ => none
  | n + 1, s =>
    match step s with
    | none => some s
    | some s => quiesce n s

def answer? (f : Fleet) (ticket : Nat) : Option Answer :=
  f.loop.replies.lookup ticket

/-- How many steps of workers are waited for. -/
def patience : Nat := 100000

/-- Submits a job and waits for its answer. When no worker moves any more and the one for the Lang
has exited, the daemon is told so. -/
def submit (job : Job) (worker : Option Nat) : Site → Option (Answer × Site)
  | (f, h) => do
    let ticket := f.tickets
    let f := { f with tickets := ticket + 1, loop := f.loop.submit job ticket }.dispatch
    let (f, h) ← quiesce patience (f, h)
    match f.answer? ticket with
    | some a => some (a, f, h)
    | none =>
      let exited := match worker.bind (f.workers[·]?) with
        | some w => w.exited
        | none => false
      if exited then
        let f := { f with loop := f.loop.workerExited job.lang }
        (f.answer? ticket).map fun a => (a, f, h)
      else
        none

/-- Stops the daemon; every connection ends. -/
def stop : Site → Except Diagnostic Unit × Site
  | (f, h) =>
    let (result, loop) := f.loop.teardown
    (result, { f with loop, workers := f.workers.map fun w => { w with key := none } }, h)

def backend : Backend Site where
  launch := launch
  terminate := terminate
  submit := submit
  stop := fun s => (some (stop s).1, (stop s).2)

end Fleet

/-- The daemon of a session: the handle and the fleet behind it. -/
structure Daemon where
  handle : Handle := {}
  fleet : Fleet

namespace Daemon

def start (launcher : Launcher) (tmpDir : String) : Daemon :=
  { fleet := { launcher, tmpDir } }

def runJob (d : Daemon) (spec : LaunchSpec) (job : Job) (h : Host) :
    Option (Except Diagnostic Job × Daemon × Host) :=
  (d.handle.runJob Fleet.backend spec job (d.fleet, h)).map fun (result, handle, fleet, h) =>
    (result, { handle, fleet }, h)

def shutdown (d : Daemon) (h : Host) : Except Diagnostic Unit × Daemon × Host :=
  let (result, handle, fleet, h) := d.handle.shutdown Fleet.backend (d.fleet, h)
  (result, { handle, fleet }, h)

/-- Lets the workers go on until none can move. -/
def settle (d : Daemon) (h : Host) : Daemon × Host :=
  match Fleet.quiesce Fleet.patience (d.fleet, h) with
  | some (fleet, h) => ({ d with fleet }, h)
  | none => (d, h)

end Daemon
end Guest
end Ditlang
