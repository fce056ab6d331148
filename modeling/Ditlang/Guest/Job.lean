import Ditlang.Json.Reader
import Ditlang.Json.Writer

/-!
# Ditlang.Guest.Job

What the interpreter and the guest workers say to each other. A job is the unit of work: a call of
a guest function, or the answer to a request that the guest function made. Lines in both directions
are JSON documents.
-/

namespace Ditlang
namespace Guest

inductive JobKind where
  | callFunc | ditlangCallback | exeDitlang | finishFunc | crash | heart
deriving DecidableEq, Repr

namespace JobKind

def word : JobKind → String
  | .callFunc => "call_func"
  | .ditlangCallback => "ditlang_callback"
  | .exeDitlang => "exe_ditlang"
  | .finishFunc => "finish_func"
  | .crash => "crash"
  | .heart => "heart"

def name : JobKind → String
  | .callFunc => "CallFunc"
  | .ditlangCallback => "DitlangCallback"
  | .exeDitlang => "ExeDitlang"
  | .finishFunc => "FinishFunc"
  | .crash => "Crash"
  | .heart => "Heart"

end JobKind

/-- A unit of work for a guest worker. -/
structure Job where
  kind : JobKind
  lang : String
  func : String
  path : String
  result : Json
  crashed : Bool
  /-- The job was handed to a worker and not yet settled. -/
  active : Bool
deriving Repr

namespace Job

/-- The call of a guest function whose body is in a file. -/
def call (lang func path : String) : Job :=
  { kind := .callFunc, lang, func, path, result := .null, crashed := false, active := false }

/-- The answer to a request of a running guest function. -/
def callback (job : Job) (result : Json) : Job :=
  { job with kind := .ditlangCallback, result, active := false }

/-- The job with the outcome that its worker reported. -/
def settle (job : Job) (kind : JobKind) (result : Json) : Job :=
  { job with kind, result, active := false, crashed := kind == .crash }

/-- The job as a new submission. -/
def fresh (job : Job) : Job :=
  { job with active := false, crashed := false }

/-- The line a worker receives for a job. -/
def wire (job : Job) : String :=
  let field (key value : String) := Json.quote key ++ ":" ++ value
  "\x7b" ++ ",".intercalate
    [field "type" (Json.quote job.kind.word), field "lang_name" (Json.quote job.lang),
      field "func_name" (Json.quote job.func), field "func_path" (Json.quote job.path),
      field "result" job.result.write] ++ "\x7d"

/-- The result of a job as text: a string as it is, anything else as JSON. -/
def resultText (job : Job) : String :=
  match job.result with
  | .str s => s
  | other => other.write

end Job

inductive WorkerMessage where
  | connect (lang : String)
  | heart
  | crash (result : Json)
  | exeDitlang (result : Json)
  | finishFunc (result : Json)
deriving Repr

namespace WorkerMessage

/-- What a worker says after it has connected, by the word for it. -/
def ofWord? (word : String) (result : Json) : Option WorkerMessage :=
  match word with
  | "heart" => some .heart
  | "crash" => some (.crash result)
  | "exe_ditlang" => some (.exeDitlang result)
  | "finish_func" => some (.finishFunc result)
  | _ => none

/-- The value of a field that may be missing; none if the field is repeated. -/
def single? (key : String) (fields : List (String × Json)) : Option (Option Json) :=
  match fields.filter (·.1 = key) with
  | [] => some none
  | [(_, value)] => some (some value)
  | _ => none

/-- A message as an object. Fields that it does not have do not count. -/
def ofFields? (fields : List (String × Json)) : Option WorkerMessage := do
  let word ← (← single? "type" fields).bind Json.text?
  if word = "connect" then
    let lang ← (← single? "lang" fields).bind Json.text?
    pure (.connect lang)
  else
    ofWord? word ((← single? "result" fields).getD .null)

/-- A message as an array: its word, and what else it has. -/
def ofItems? : List Json → Option WorkerMessage
  | [.str "connect", .str lang] => some (.connect lang)
  | [.str word] => ofWord? word .null
  | [.str word, result] => ofWord? word result
  | _ => none

def read? (line : String) : Option WorkerMessage :=
  match Json.readObject? line with
  | some fields => ofFields? fields
  | none =>
    match Json.read? line with
    | some (.arr items) => ofItems? items
    | _ => none

end WorkerMessage

/-- What is needed to start a worker for a Lang. -/
structure LaunchSpec where
  lang : String
  executable : String
  extension : String
  driver : String
deriving DecidableEq, Repr

end Guest
end Ditlang
