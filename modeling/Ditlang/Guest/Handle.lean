import Ditlang.Guest.Loop

/-!
# Ditlang.Guest.Handle

The interpreter's side of the daemon. The handle remembers which worker serves which Lang, starts
one when a Lang has none, and submits jobs. A call whose worker went away before it saw the call is
submitted once more, to a fresh worker. How workers are started and how submissions come to be
answered is left to a `Backend`.
-/

namespace Ditlang
namespace Guest

/-- How workers are started and stopped and how submissions are answered, over a state `σ`. -/
structure Backend (σ : Type) where
  launch : LaunchSpec → σ → Except String Nat × σ
  terminate : Nat → σ → σ
  /-- Submits a job and waits for the answer; none if there never is one. The second argument is
  the worker of the job's Lang. -/
  submit : Job → Option Nat → σ → Option (Answer × σ)
  /-- Stops the daemon and waits for its thread; none if the thread panicked. -/
  stop : σ → Option (Except Diagnostic Unit) × σ

/-- The workers by the Lang they serve, and whether the daemon runs. -/
structure Handle where
  workers : List (String × Nat) := []
  running : Bool := true
deriving Repr

namespace Handle

variable {σ : Type}

def ensureWorker (b : Backend σ) (h : Handle) (lang : String) (spec : LaunchSpec) (s : σ) :
    Except Diagnostic Handle × σ :=
  if (h.workers.lookup lang).isSome then
    (.ok h, s)
  else
    match b.launch spec s with
    | (.ok worker, s) => (.ok { h with workers := h.workers ++ [(lang, worker)] }, s)
    | (.error reason, s) =>
      (.error (.critical ("Could not launch '" ++ spec.executable ++ "' for Lang '" ++ spec.lang
        ++ "': " ++ reason)), s)

/-- Forgets the worker of a Lang and stops it, so that the next job starts a fresh one. -/
def retire (b : Backend σ) (h : Handle) (lang : String) (s : σ) : Handle × σ :=
  match h.workers.lookup lang with
  | some worker =>
    ({ h with workers := h.workers.filter (·.1 ≠ lang) }, b.terminate worker s)
  | none => (h, s)

def crashed (func text : String) : Diagnostic :=
  { kind := .code, message := "Guest function '" ++ func ++ "' crashed:\n" ++ text }

/-- The outcome of a settled job: a crash is an error. -/
def outcome (job : Job) : Except Diagnostic Job :=
  if job.crashed then .error (crashed job.func (Text.trimEnd job.resultText)) else .ok job

/-- Runs a job to its next answer, submitting a lost call again at most `retries` times. -/
def runJobWith (b : Backend σ) (spec : LaunchSpec) :
    Nat → Job → Handle → σ → Option (Except Diagnostic Job × Handle × σ)
  | retries, job, h, s =>
    match h.ensureWorker b job.lang spec s with
    | (.error d, s) => some (.error d, h, s)
    | (.ok h, s) =>
      if !h.running then
        some (.error (.critical "Guest daemon is not running"), h, s)
      else
        match b.submit job.fresh (h.workers.lookup job.lang) s with
        | none => none
        | some (.refused d, s) => some (.error d, h, s)
        | some (.done finished, s) => some (outcome finished, h, s)
        | some (.lost lost, s) =>
          let (h, s) := h.retire b lost.lang s
          match retries, lost.kind with
          | retries + 1, .callFunc => runJobWith b spec retries lost h s
          | _, _ =>
            some (.error (crashed lost.func (lost.lang ++ " worker disconnected before answering")),
              h, s)

def runJob (b : Backend σ) (spec : LaunchSpec) (job : Job) (h : Handle) (s : σ) :
    Option (Except Diagnostic Job × Handle × σ) :=
  runJobWith b spec 1 job h s

/-- Stops the daemon and every worker. A second time nothing happens. -/
def shutdown (b : Backend σ) (h : Handle) (s : σ) : Except Diagnostic Unit × Handle × σ :=
  if h.running then
    match b.stop s with
    | (some result, s) =>
      let s := h.workers.foldl (fun s (_, worker) => b.terminate worker s) s
      (result, { workers := [], running := false }, s)
    | (none, s) =>
      (.error (.critical "Guest daemon thread panicked"), { h with running := false }, s)
  else
    (.ok (), h, s)

end Handle
end Guest
end Ditlang
