import Ditlang.Host.Path
import Ditlang.Text.Utf8

/-!
# Ditlang.Host.FileTree

The files of the host as a value: directories and files under the names that lead to them from
the root, and the directory in which relative paths start. Operations fail with the reasons an
operating system gives.
-/

namespace Ditlang
namespace Host

inductive OsError where
  | notFound
  | permissionDenied
  | alreadyExists
  | notADirectory
  | isADirectory
  | nameTooLong
  | nulInName
  | nulInCommand
  | notUtf8
deriving DecidableEq, Repr

def OsError.message : OsError → String
  | .notFound => "No such file or directory (os error 2)"
  | .permissionDenied => "Permission denied (os error 13)"
  | .alreadyExists => "File exists (os error 17)"
  | .notADirectory => "Not a directory (os error 20)"
  | .isADirectory => "Is a directory (os error 21)"
  | .nameTooLong => "File name too long (os error 36)"
  | .nulInName => "file name contained an unexpected NUL byte"
  | .nulInCommand => "nul byte found in provided data"
  | .notUtf8 => "stream did not contain valid UTF-8"

inductive Node where
  | dir
  | file (bytes : List UInt8)
  /-- Something that takes what is written to it and is not a file. -/
  | device
deriving DecidableEq, Repr

/-- The files of the host. A place is the list of names that lead to it from the root. -/
structure FileTree where
  nodes : List (List String × Node)
  cwd : List String

namespace FileTree

/-- What stands at a place; the root is always a directory. -/
def node? (t : FileTree) (place : List String) : Option Node :=
  if place = [] then some .dir else t.nodes.lookup place

/-- The directories around a place, from the root down, and the place itself. -/
def chain (place : List String) : List (List String) :=
  (List.range place.length).map fun n => place.take (n + 1)

/-- Puts something at a place, over what stood there. -/
def set (t : FileTree) (place : List String) (n : Node) : FileTree :=
  { t with nodes := (place, n) :: t.nodes.filter (·.1 ≠ place) }

def erase (t : FileTree) (place : List String) : FileTree :=
  { t with nodes := t.nodes.filter (·.1 ≠ place) }

/-- Makes directories of all missing places down to this one. -/
def addDirs (t : FileTree) (place : List String) : FileTree :=
  (chain place).foldl (fun t p => if (t.node? p).isNone then t.set p .dir else t) t

/-- The tree with nothing but the directory in which relative paths start. -/
def startingIn (cwd : List String) : FileTree :=
  addDirs { nodes := [], cwd } cwd

/-- Follows the components of a path from a place. Every component but the last has to lead to a
directory; what the last one leads to need not exist. -/
def walk (t : FileTree) : List String → List String → Except OsError (List String)
  | place, [] => .ok place
  | place, name :: rest =>
    match t.node? place with
    | none => .error .notFound
    | some (.file _) | some .device => .error .notADirectory
    | some .dir =>
      if name = "" || name = "." then t.walk place rest
      else if name = ".." then t.walk place.dropLast rest
      else if 255 < name.utf8ByteSize then .error .nameTooLong
      else t.walk (place ++ [name]) rest

/-- The components of a path that the operating system accepts, and the place where it starts. -/
def start? (t : FileTree) (path : String) : Except OsError (List String × List String) :=
  if path.isEmpty then .error .notFound
  else if path.toList.contains (Char.ofNat 0) then .error .nulInName
  else if 4095 < path.utf8ByteSize then .error .nameTooLong
  else .ok (if Path.isAbsolute path then [] else t.cwd, Path.components path)

def resolve (t : FileTree) (path : String) : Except OsError (List String) := do
  let (start, parts) ← t.start? path
  t.walk start parts

def stat (t : FileTree) (path : String) : Except OsError Node := do
  let place ← t.resolve path
  match t.node? place with
  | some n => pure n
  | none => throw .notFound

def isDir (t : FileTree) (path : String) : Bool :=
  match t.stat path with
  | .ok .dir => true
  | _ => false

/-- Where a path makes something new: in which directory, under which name, and whether a slash
follows the name. -/
structure Entry where
  dir : List String
  name : String
  slashed : Bool
deriving DecidableEq, Repr

def Entry.place (e : Entry) : List String :=
  e.dir ++ [e.name]

/-- Where a path makes something new. Its directory has to exist; a path that ends in `.` or `..`,
and the path of the root, give no name. -/
def entry? (t : FileTree) (path : String) : Except OsError (Option Entry) := do
  let (start, parts) ← t.start? path
  let named := (parts.reverse.dropWhile (· = "")).reverse
  match named.getLast? with
  | none => pure none
  | some name =>
    let dir ← t.walk start named.dropLast
    match t.node? dir with
    | none => throw .notFound
    | some (.file _) | some .device => throw .notADirectory
    | some .dir =>
      if name = "." || name = ".." then pure none
      else pure (some { dir, name, slashed := named.length < parts.length })

/-- What stands under the name of an entry. A name can be too long to look up. -/
def Entry.node? (e : Entry) (t : FileTree) : Except OsError (Option Node) :=
  if 255 < e.name.utf8ByteSize then .error .nameTooLong else .ok (t.node? e.place)

/-- Makes a directory whose own directory exists. Slashes at the end of the path do not count. -/
def makeDir (t : FileTree) (path : String) : Except OsError FileTree := do
  match ← t.entry? path with
  | none => throw .alreadyExists
  | some e =>
    match ← e.node? t with
    | some _ => throw .alreadyExists
    | none => pure (t.set e.place .dir)

/-- Makes a directory and those around it as far as they are missing; at most `n` of them. -/
def makeDirsWithin : Nat → FileTree → String → Except OsError FileTree
  | 0, _, _ => .error .notFound
  | n + 1, t, path =>
    if path.isEmpty then
      .ok t
    else
      match t.makeDir path with
      | .ok t => .ok t
      | .error .notFound =>
        match Path.parent? path with
        | none => .error .notFound
        | some outer => do
          let t ← makeDirsWithin n t outer
          match t.makeDir path with
          | .ok t => .ok t
          | .error e => if t.isDir path then .ok t else .error e
      | .error e => if t.isDir path then .ok t else .error e

/-- Makes a directory and those around it as far as they are missing. -/
def makeDirs (t : FileTree) (path : String) : Except OsError FileTree :=
  makeDirsWithin (path.length + 1) t path

/-- Writes a file, over one that is there. A path that ends in a slash cannot be the path of a
file. -/
def write (t : FileTree) (path : String) (contents : String) : Except OsError FileTree := do
  match ← t.entry? path with
  | none => throw .isADirectory
  | some e =>
    if e.slashed then throw .isADirectory
    else
      match ← e.node? t with
      | some .dir => throw .isADirectory
      | some .device => pure t
      | _ => pure (t.set e.place (.file (Text.bytes contents)))

def read (t : FileTree) (path : String) : Except OsError String := do
  match ← t.stat path with
  | .dir => throw .isADirectory
  | .device => pure ""
  | .file bytes =>
    match Text.ofBytes? bytes with
    | some text => pure text
    | none => throw .notUtf8

/-- The files in a directory with their contents, sorted by name; none if there is no such
directory. -/
def listing (t : FileTree) (path : String) : List (String × List UInt8) :=
  match t.resolve path with
  | .error _ => []
  | .ok place =>
    let found := t.nodes.filterMap fun (p, n) =>
      match n, p.getLast? with
      | .file bytes, some name => if p.dropLast = place then some (name, bytes) else none
      | _, _ => none
    found.mergeSort fun a b => a.1 ≤ b.1

end FileTree
end Host
end Ditlang
