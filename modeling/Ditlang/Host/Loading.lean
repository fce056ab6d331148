import Ditlang.Diagnostic
import Ditlang.Host.FileTree
import Ditlang.Host.Url

/-!
# Ditlang.Host.Loading

Where an import leads, and what is read from a file. A relative target is taken relative to the
importing file, and stays on the server when that was loaded over HTTP. What a server answers is up to
the host; without a network (`offline`) every request fails.
-/

namespace Ditlang
namespace Host

def beforeLastSlash? (s : String) : Option String :=
  let reversed := s.toList.reverse
  if reversed.contains '/' then
    some (String.ofList (reversed.dropWhile (· ≠ '/')).tail.reverse)
  else
    none

/-- The path that an import of `target` in the file `importer` means. -/
def resolveImport (target importer : String) : String :=
  if Url.isUrl target || Path.isAbsolute target then
    target
  else if Url.isUrl importer then
    match beforeLastSlash? importer with
    | some dir => dir ++ "/" ++ target
    | none => target
  else
    match Path.parent? importer with
    | some dir => if dir.isEmpty then target else Path.join dir target
    | none => target

def fileError (path : String) (e : OsError) : Diagnostic :=
  match e with
  | .notFound =>
    { kind := .file .notFound, message := "Import failed, file not found: '" ++ path ++ "'" }
  | .permissionDenied =>
    { kind := .file .permissionDenied,
      message := "Import failed, permission denied: '" ++ path ++ "'" }
  | e =>
    { kind := .file .transport,
      message := "Import failed, " ++ e.message ++ ": '" ++ path ++ "'" }

/-- What is answered to a request for a URL where there is no way to any network. -/
def offline (url : String) : Except String String :=
  match Url.ofText url with
  | .error fault => .error ("Bad URL: failed to parse URL: " ++ fault.message)
  | .ok u =>
    .error (u.text ++ ": Connection Failed: Connect error: Network is unreachable (os error 101)")

/-- The diagnostic of a source that a server did not give. -/
def webError (reason : String) : Diagnostic :=
  { kind := .file .transport, message := "Import failed, " ++ reason }

def FileTree.load (t : FileTree) (path : String) : Except Diagnostic String :=
  match t.stat path with
  | .error e => .error (fileError path e)
  | .ok .dir | .ok .device =>
    .error { kind := .file .notAFile, message := "Import failed, not a file: '" ++ path ++ "'" }
  | .ok (.file _) => (t.read path).mapError (fileError path)

end Host
end Ditlang
