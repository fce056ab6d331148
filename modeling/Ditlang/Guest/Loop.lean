import Ditlang.Diagnostic
import Ditlang.Guest.Job

/-!
# Ditlang.Guest.Loop

The state of the daemon that stands between the interpreter and the guest workers. It knows the
connections of workers, at most one pending job, and the Langs whose worker has gone since it
connected. A job is written to the worker of its Lang once that has connected, and is settled by
what that worker says, by its disconnection, or by the report that it exited. Every submission
carries a ticket and is answered under it.
-/

namespace Ditlang
namespace Guest

inductive Answer where
  | done (job : Job)
  /-- The worker went away before it saw the job, so the job can be submitted again. -/
  | lost (job : Job)
  | refused (d : Diagnostic)
deriving Repr

structure Pending where
  job : Job
  ticket : Nat
  /-- Whether the worker has said anything since the job was written to it. -/
  heard : Bool
deriving Repr

inductive Event where
  | connected (key : Nat) (lang : String)
  | message (key : Nat) (message : WorkerMessage)
  | malformed (key : Nat) (line : String)
  | closed (key : Nat)
deriving Repr

/-- One thing said on a connection: a job that was written to it, or a reply that was taken from
it. The Lang is that of the job. -/
structure Said where
  key : Nat
  lang : String
  kind : JobKind
deriving DecidableEq, Repr

/-- The reply that an event brings to a job; a line that cannot be read counts as a crash. -/
def Event.reply? : Event → Option (Nat × JobKind)
  | .message key (.crash _) => some (key, .crash)
  | .message key (.exeDitlang _) => some (key, .exeDitlang)
  | .message key (.finishFunc _) => some (key, .finishFunc)
  | .malformed key _ => some (key, .crash)
  | _ => none

structure Loop where
  /-- The connections that announced a Lang, oldest first. -/
  connections : List (Nat × String) := []
  /-- The connections that are read from. -/
  readers : List Nat := []
  pending : Option Pending := none
  /-- Langs whose worker connected once and has gone since. -/
  lost : List String := []
  nextKey : Nat := 0
  /-- The answers given, with their tickets, oldest first. -/
  replies : List (Nat × Answer) := []
deriving Repr

namespace Loop

def reply (s : Loop) (ticket : Nat) (a : Answer) : Loop :=
  { s with replies := s.replies ++ [(ticket, a)] }

/-- Takes a new connection, which announces nothing yet. -/
def accept (s : Loop) : Nat × Loop :=
  (s.nextKey, { s with nextKey := s.nextKey + 1, readers := s.readers ++ [s.nextKey] })

def connected (s : Loop) (lang : String) : Bool :=
  s.connections.any (·.2 == lang)

def complete (s : Loop) : Loop :=
  match s.pending with
  | none => s
  | some p => { s with pending := none }.reply p.ticket (.done p.job)

def lose (s : Loop) : Loop :=
  match s.pending with
  | none => s
  | some p => { s with pending := none }.reply p.ticket (.lost { p.job with active := false })

def modifyPending (s : Loop) (f : Pending → Pending) : Loop :=
  { s with pending := s.pending.map f }

def settle (s : Loop) (kind : JobKind) (result : Json) : Loop :=
  (s.modifyPending fun p => { p with job := p.job.settle kind result }).complete

def crash (s : Loop) (text : String) : Loop :=
  s.settle .crash (.str text)

/-- Takes a submission. While another job is pending it is refused; if the worker of its Lang has
gone it is lost at once, and the next submission waits for a new worker. -/
def submit (s : Loop) (job : Job) (ticket : Nat) : Loop :=
  if s.pending.isSome then
    s.reply ticket (.refused (.critical "A guest job is already in flight"))
  else
    let gone := !s.connected job.lang && s.lost.contains job.lang
    let s := { s with pending := some ⟨job, ticket, false⟩ }
    if gone then { s with lost := s.lost.filter (· ≠ job.lang) }.lose else s

/-- Takes the report that the worker process of a Lang has exited. A worker that never connected
cannot report its own death. -/
def workerExited (s : Loop) (lang : String) : Loop :=
  match s.pending with
  | some p =>
    if p.job.lang = lang ∧ p.job.active = false ∧ s.connected lang = false then
      s.crash (lang ++ " worker exited before it connected")
    else s
  | none => s

/-- Whether the pending job was handed to the worker on a connection. -/
def activeFor (s : Loop) (key : Nat) : Bool :=
  match s.pending, s.connections.lookup key with
  | some p, some lang => p.job.active && p.job.lang == lang
  | _, _ => false

/-- The reply that the daemon takes from an event: one of the worker that has the job. -/
def taken? (s : Loop) (e : Event) : Option Said :=
  match s.pending, e.reply? with
  | some p, some (key, kind) => if s.activeFor key then some ⟨key, p.job.lang, kind⟩ else none
  | _, _ => none

/-- Whether the pending job is a call that its worker has not acknowledged. -/
def unansweredCall (s : Loop) : Bool :=
  match s.pending with
  | some p => p.job.kind == .callFunc && !p.heard
  | none => false

/-- Takes a message of a worker. One that does not have the job says nothing of interest. -/
def onMessage (s : Loop) (key : Nat) (m : WorkerMessage) : Loop :=
  if s.activeFor key then
    match m with
    | .heart => s.modifyPending fun p => { p with heard := true }
    | .crash result => s.settle .crash result
    | .exeDitlang result => s.settle .exeDitlang result
    | .finishFunc result => s.settle .finishFunc result
    | .connect _ => s
  else s

def drop (s : Loop) (key : Nat) : Loop :=
  { s with
    connections := s.connections.filter (·.1 ≠ key)
    readers := s.readers.filter (· ≠ key) }

/-- Takes the end of a connection. A call that the worker had not acknowledged is lost, any other
job crashes. -/
def onClosed (s : Loop) (key : Nat) : Loop :=
  match s.connections.lookup key with
  | none => s.drop key
  | some lang =>
    let active := s.activeFor key
    let t := s.drop key
    if active && s.unansweredCall then
      t.lose
    else
      let t := if active then t.crash (lang ++ " worker disconnected during the call") else t
      { t with lost := if t.lost.contains lang then t.lost else t.lost ++ [lang] }

/-- Enters a connection under its key, at the end; one that is there is replaced in its place. -/
def register (key : Nat) (lang : String) : List (Nat × String) → List (Nat × String)
  | [] => [(key, lang)]
  | (k, l) :: rest => if k = key then (key, lang) :: rest else (k, l) :: register key lang rest

/-- Takes an event. A second connection for a Lang is dropped. -/
def handle (s : Loop) : Event → Loop
  | .connected key lang =>
    if s.connected lang then
      { s with readers := s.readers.filter (· ≠ key) }
    else
      { s with
        lost := s.lost.filter (· ≠ lang)
        connections := register key lang s.connections }
  | .message key m => s.onMessage key m
  | .malformed key line =>
    if s.activeFor key then s.crash ("Guest worker sent a malformed message: " ++ line) else s
  | .closed key => s.onClosed key

/-- The job that can be written now, and the connection to write it to. -/
def outgoing? (s : Loop) : Option (Nat × Job) := do
  let p ← s.pending
  if p.job.active || !(p.job.kind == .callFunc || p.job.kind == .ditlangCallback) then
    none
  else
    let (key, _) ← s.connections.find? (·.2 == p.job.lang)
    pure (key, p.job)

def written (s : Loop) : Loop :=
  s.modifyPending fun p => { p with job := { p.job with active := true }, heard := false }

/-- The pending job could not be written to its worker: a call is lost, an answer crashes. -/
def unwritten (s : Loop) (key : Nat) (job : Job) (reason : String) : Loop :=
  let t := s.drop key
  if job.kind = .callFunc then t.lose
  else t.crash ("Could not reach the " ++ job.lang ++ " worker: " ++ reason)

/-- Writes the pending job if its worker is connected; `write` says why a line could not be
written. -/
def dispatch (s : Loop) (write : Nat → String → Option String) : Loop :=
  match s.outgoing? with
  | none => s
  | some (key, job) =>
    match write key job.wire with
    | none => s.written
    | some reason => s.unwritten key job reason

/-- Stops the daemon. A job that is still pending is refused, and reported. -/
def teardown (s : Loop) : Except Diagnostic Unit × Loop :=
  let t := { s with connections := [], readers := [] }
  match s.pending with
  | none => (.ok (), t)
  | some p =>
    let d := Diagnostic.critical
      ("Guest daemon shut down while '" ++ p.job.func ++ "' was in flight")
    (.error d, { t with pending := none }.reply p.ticket (.refused d))

end Loop
end Guest
end Ditlang
