import Ditlang.Session.Prompt

/-!
# Ditlang.CommandLine

The command line: `run` a file, `eval` a text, or start a prompt, which is also what happens without
a command. `--tmp-dir` may stand before and after the command, and names the directory for guest
files; without it an environment variable does.
-/

namespace Ditlang
namespace CommandLine

inductive Command where
  | run (script : String)
  | prompt
  | eval (source : String)
deriving DecidableEq, Repr

inductive Request where
  | execute (command : Command) (tmpDir : Option String)
  | version
  | help
  /-- The arguments make no sense. -/
  | misuse
deriving DecidableEq, Repr

inductive Argument where
  | escape
  | tmpDir
  | tmpDirIs (value : String)
  | version
  | help
  | unknownOption
  | plain (value : String)
deriving DecidableEq, Repr

/-- Classifies an argument. A dash alone is a plain value. -/
def Argument.ofText (arg : String) : Argument :=
  match arg.toList with
  | ['-', '-'] => .escape
  | '-' :: '-' :: _ =>
    if arg = "--tmp-dir" then .tmpDir
    else if arg = "--version" then .version
    else if arg = "--help" then .help
    else if "--tmp-dir=".toList.isPrefixOf arg.toList then
      .tmpDirIs (String.ofList (arg.toList.drop "--tmp-dir=".length))
    else .unknownOption
  | '-' :: 'V' :: _ => .version
  | '-' :: 'h' :: _ => .help
  | '-' :: _ :: _ => .unknownOption
  | _ => .plain arg

/-- The commands by their words. A command that takes a value says what becomes of it. -/
inductive CommandWord where
  | run | prompt | eval
deriving DecidableEq, Repr

namespace CommandWord

def ofText? : String → Option CommandWord
  | "run" => some .run
  | "repl" => some .prompt
  | "eval" => some .eval
  | _ => none

/-- Whether the command takes this value: a script has a name. -/
def accepts : CommandWord → String → Bool
  | .run, value => !value.isEmpty
  | .prompt, _ => false
  | .eval, _ => true

/-- The command with its value, if it has the one it needs. -/
def complete? : CommandWord → Option String → Option Command
  | .run, some script => some (.run script)
  | .eval, some source => some (.eval source)
  | .prompt, none => some .prompt
  | _, _ => none

end CommandWord

/-- The directory that applies at one level: its own option, else the environment, whose value must
not be empty. -/
def levelDir (env own : Option String) : Except Unit (Option String) :=
  match own, env with
  | some dir, _ => .ok (some dir)
  | none, some "" => .error ()
  | none, env => .ok env

/-- Finishes the request for a command. An option after the command wins over one before it, and
either over the environment. -/
def finish (env before after : Option String) (word : CommandWord) (value : Option String) :
    Request :=
  match levelDir env before, levelDir env after, word.complete? value with
  | .ok _, .ok _, some command => .execute command (after.or (before.or env))
  | _, _, _ => .misuse

def parseCommand (env before : Option String) (word : CommandWord) :
    Option String → Option String → List String → Request
  | after, value, [] => finish env before after word value
  | after, value, arg :: rest =>
    match Argument.ofText arg with
    | .escape =>
      -- everything behind is a plain value
      match rest, value with
      | [], _ => finish env before after word value
      | [v], none => if word.accepts v then finish env before after word (some v) else .misuse
      | _, _ => .misuse
    | .tmpDir =>
      match rest with
      | [] => .misuse
      | dir :: rest =>
        if after.isSome || dir.isEmpty || Argument.ofText dir ≠ .plain dir then .misuse
        else parseCommand env before word (some dir) value rest
    | .tmpDirIs dir =>
      if after.isSome || dir.isEmpty then .misuse
      else parseCommand env before word (some dir) value rest
    | .help => .help
    | .version | .unknownOption => .misuse
    | .plain v =>
      if value.isNone && word.accepts v then parseCommand env before word after (some v) rest
      else .misuse

/-- The arguments after `help`: nothing, or one command that is known. -/
def parseHelp : List String → Request
  | [] => .help
  | [word] => if word = "help" || (CommandWord.ofText? word).isSome then .help else .misuse
  | _ => .misuse

/-- The request without a command: a prompt. -/
def withoutCommand (env before : Option String) : Request :=
  match levelDir env before with
  | .ok dir => .execute .prompt dir
  | .error () => .misuse

def parseWith (env : Option String) : Option String → List String → Request
  | before, [] => withoutCommand env before
  | before, arg :: rest =>
    match Argument.ofText arg with
    | .escape => if rest.isEmpty then withoutCommand env before else .misuse
    | .tmpDir =>
      match rest with
      | [] => .misuse
      | dir :: rest =>
        if before.isSome || dir.isEmpty || Argument.ofText dir ≠ .plain dir then .misuse
        else parseWith env (some dir) rest
    | .tmpDirIs dir =>
      if before.isSome || dir.isEmpty then .misuse else parseWith env (some dir) rest
    | .version => .version
    | .help => .help
    | .unknownOption => .misuse
    | .plain word =>
      if word = "help" then parseHelp rest
      else
        match CommandWord.ofText? word with
        | some command => parseCommand env before command none none rest
        | none => .misuse

/-- What the arguments mean, given the directory that the environment names. -/
def parse (env : Option String) (args : List String) : Request :=
  parseWith env none args

/-- What a run of the command line shows. -/
structure Report where
  code : Nat
  out : String := ""
  err : String := ""
deriving DecidableEq, Repr

/-- The directory for guest files when nothing else names one. -/
def defaultTmpDir : String := "/tmp/dit"

def defaultMainPath : String := "<main>"

def versionText : String := "dit 0.1.0\n"

def usageText : String := String.join
  ["dit language interpreter\n\n",
    "Usage: dit [OPTIONS] [COMMAND]\n\n",
    "Commands:\n",
    "  run   Run a .dit file\n",
    "  repl  Start an interactive REPL session\n",
    "  eval  Evaluate a snippet of dit code\n",
    "  help  Print this message or the help of the given subcommand(s)\n\n",
    "Options:\n",
    "      --tmp-dir <TMP_DIR>  Where generated guest files and worker drivers are written\n",
    "  -h, --help               Print help\n",
    "  -V, --version            Print version\n"]

/-- How a command ended: its exit code, and what was reported as failures. -/
structure Ending where
  code : Nat
  reported : String
deriving DecidableEq, Repr

def close (reported : String) (s : Session) : Ending × Session :=
  match s.shutdown with
  | (.ok (), s) => ({ code := 0, reported }, s)
  | (.error d, s) => ({ code := 1, reported := reported ++ d.report ++ "\n" }, s)

/-- Ends a session after a whole program. A program that failed leaves its workers alone. -/
def closeAfter (result : Except Failure Unit) (s : Session) : Ending × Session :=
  match result with
  | .ok () => close "" s
  | .error e => ({ code := 1, reported := e.report ++ "\n" }, s)

/-- Runs a command in a session; none if the fuel did not reach. -/
def perform (command : Command) (input : String) (s : Session) : Option (Ending × Session) :=
  match command with
  | .run script => (s.runFile script).map fun (result, s) => closeAfter result s
  | .eval source => (s.evalSource source).map fun (result, s) => closeAfter result s
  | .prompt => (s.prompt (Session.linesOf input)).map fun (reported, s) => close reported s

def openSession (tmpDir : Option String) (host : Host) : Session :=
  Session.start defaultMainPath (tmpDir.getD defaultTmpDir) none host

/-- Runs the command line on a host; none if the fuel did not reach. -/
def run (env : Option String) (args : List String) (input : String) (host : Host) :
    Option Report :=
  match parse env args with
  | .misuse => some { code := 2, err := usageText }
  | .help => some { code := 0, out := usageText }
  | .version => some { code := 0, out := versionText }
  | .execute command tmpDir =>
    (perform command input (openSession tmpDir host)).map fun (ending, s) =>
      { code := ending.code, out := s.host.printed, err := ending.reported }

end CommandLine
end Ditlang
