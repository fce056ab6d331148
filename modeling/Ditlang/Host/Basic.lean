import Ditlang.Host.Loading

/-!
# Ditlang.Host

The machine a session runs on: its files, what servers answer, the commands it can start, whether its
loopback network works, what was printed on its console, and a record of what guest workers did.
-/

namespace Ditlang

inductive WorkerEvent where
  | launch (lang executable extension : String) (driverBytes : Nat)
  | recv (line : String)
deriving DecidableEq, Repr

/-- The machine a session runs on. -/
structure Host where
  files : Host.FileTree
  /-- What is answered to a request for a URL after the sources that were asked for before, the last
  one first: a text, or the reason why there is none. -/
  web : List String → String → Except String String := fun _ => Host.offline
  /-- The commands found by name. They exit at once. -/
  commands : List String := ["true", "false"]
  /-- The places of the directories that hold the commands. -/
  commandDirs : List (List String) := [["usr", "bin"], ["bin"]]
  /-- Whether workers can connect to the daemon. -/
  loopback : Bool := true
  printed : String := ""
  workerLog : List WorkerEvent := []
  /-- The sources that were asked for, the last one first. -/
  asked : List String := []

namespace Host

def printLine (h : Host) (line : String) : Host :=
  { h with printed := h.printed ++ line ++ "\n" }

def record (h : Host) (e : WorkerEvent) : Host :=
  { h with workerLog := h.workerLog ++ [e] }

/-- Reads a source from a file or from a server, and remembers that it was asked for. -/
def load (h : Host) (path : String) : Except Diagnostic String × Host :=
  let source :=
    if Url.isUrl path then (h.web h.asked path).mapError webError else h.files.load path
  (source, { h with asked := path :: h.asked })

def isCommand (h : Host) (place : List String) : Bool :=
  h.commandDirs.contains place.dropLast && place.getLast?.any h.commands.contains

/-- Whether a command can be started. A name without slash is looked up among the commands, where
`.` and `..` are found as directories. A path leads to a command or to a file, and no other file of
the host is executable. -/
def startCommand (h : Host) (executable : String) : Except OsError Unit :=
  if executable.toList.contains (Char.ofNat 0) then
    .error .nulInCommand
  else if executable.toList.contains '/' then
    match h.files.resolve executable with
    | .error e => .error e
    | .ok place =>
      if h.isCommand place then .ok ()
      else if (h.files.node? place).isSome then .error .permissionDenied
      else .error .notFound
  else if 255 < executable.utf8ByteSize then
    .error .nameTooLong
  else if executable = "." || executable = ".." then
    .error .permissionDenied
  else if h.commands.contains executable then
    .ok ()
  else
    .error .notFound

/-- Writes a file into a directory, which is made if it is missing, and returns its path. A
directory that was made stays when the file cannot be written. -/
def writeInto (h : Host) (dir name contents : String) : Except OsError String × Host :=
  match h.files.makeDirs dir with
  | .error e => (.error e, h)
  | .ok files =>
    let path := Path.join dir name
    match files.write path contents with
    | .error e => (.error e, { h with files })
    | .ok files => (.ok path, { h with files })

end Host
end Ditlang
