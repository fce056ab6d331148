import Ditlang.CommandLine

/-!
# Ditlang.Main

The program itself. What a command does is a function of the files that the host holds, and the
disk is not such a value. So a command runs on the files that are known, what it asked for besides
them is looked up on the disk, and it runs again, until it asks for nothing new; only then is
shown what it did. At a prompt this happens line by line. Guest commands are never started.
-/

namespace Ditlang
namespace Main

open CommandLine

def onDisk (path : String) : IO (Option Host.Node) := do
  try
    let found ← IO.FS.realPath path
    match (← found.metadata).type with
    | .dir => return some .dir
    | .file => return some (.file (← IO.FS.readBinFile found).toList)
    | _ => return some .device
  catch _ =>
    return none

/-- Takes over from the disk what stands along a path and at its end. -/
def learn (t : Host.FileTree) (path : String) : IO Host.FileTree :=
  (Host.Path.stages path).foldlM
    (fun t stage => do
      match t.resolve stage with
      | .error _ => return t
      | .ok place =>
        match ← onDisk stage with
        | some n => return t.set place n
        | none => return t.erase place)
    t

/-- Runs a step of a session until it asks for no source that has not been looked up. -/
partial def settled {α : Type} (step : Session → Option (α × Session)) (known : List String)
    (s : Session) : IO (Option (α × Session)) := do
  match step s with
  | none => return none
  | some (a, after) =>
    let fresh := after.host.asked.filter (!known.contains ·)
    if fresh.isEmpty then
      return some (a, after)
    else
      let files ← fresh.foldlM learn s.host.files
      settled step (fresh ++ known) { s with host := { s.host with files } }

/-- Writes the guest files that the disk does not hold yet. -/
def keepGuestFiles (s : Session) : IO Unit := do
  for (name, bytes) in s.host.files.listing s.tmpDir do
    let path := Host.Path.join s.tmpDir name
    unless (← onDisk path) = some (.file bytes) do
      IO.FS.createDirAll s.tmpDir
      IO.FS.writeBinFile path ⟨bytes.toArray⟩

/-- Shows what a step printed and what it reported as failures, and makes the session ready for the
next one. -/
def publish (reported : String) (s : Session) : IO Session := do
  IO.print s.host.printed
  IO.eprint reported
  keepGuestFiles s
  (← IO.getStdout).flush
  return { s with host := { s.host with printed := "", asked := [] } }

/-- The exit code of a command whose nesting went too deep. -/
def tooDeep : IO UInt32 := do
  IO.eprintln "nested too deeply"
  return 134

def conclude (result : Option (Ending × Session)) : IO UInt32 := do
  match result with
  | none => tooDeep
  | some (ending, s) =>
    let _ ← publish ending.reported s
    return UInt32.ofNat ending.code

partial def promptLoop (s : Session) : IO UInt32 := do
  let input ← IO.getStdin
  if ← input.isTty then
    IO.print "dit> "
    (← IO.getStdout).flush
  let line ← input.getLine
  match if line.isEmpty then .exit else Session.PromptLine.ofText line with
  | .exit => conclude (some (close "" s))
  | .blank => promptLoop s
  | .input text =>
    match ← settled (·.promptLine text) [] s with
    | none => tooDeep
    | some (reported, s) => promptLoop (← publish reported s)

def execute (command : Command) (tmpDir : Option String) : IO UInt32 := do
  let cwd := (← IO.currentDir).toString
  let places := (Host.Path.components cwd).filter (!·.isEmpty)
  let blank := openSession tmpDir { files := .startingIn places, commands := [] }
  let files ← learn blank.host.files blank.tmpDir
  let s := { blank with host := { blank.host with files } }
  match command with
  | .prompt => promptLoop s
  | command => conclude (← settled (perform command "") [] s)

end Main
end Ditlang

def main (args : List String) : IO UInt32 := do
  match Ditlang.CommandLine.parse (← IO.getEnv "DIT_TMP_DIR") args with
  | .misuse =>
    IO.eprint Ditlang.CommandLine.usageText
    return 2
  | .help =>
    IO.print Ditlang.CommandLine.usageText
    return 0
  | .version =>
    IO.print Ditlang.CommandLine.versionText
    return 0
  | .execute command tmpDir => Ditlang.Main.execute command tmpDir
