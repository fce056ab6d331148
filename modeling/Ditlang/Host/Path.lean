/-!
# Ditlang.Host.Path

Paths as texts with slashes. Taking the directory of a path and going from a directory to
something in it keep the spelling of what they leave alone.
-/

namespace Ditlang
namespace Host
namespace Path

def isAbsolute (path : String) : Bool :=
  path.toList.head? == some '/'

/-- The number of characters that stand for where a path starts: the root, or a leading `.`. -/
def startLength : List Char → Nat
  | '/' :: _ => 1
  | ['.'] => 1
  | '.' :: '/' :: _ => 1
  | _ => 0

/-- Splits off the last component of a path, if any is left after its start; the first part keeps
no slash at its end. Both parts are in reverse order. -/
def splitLast (start : Nat) (reversed : List Char) : Option (List Char × List Char) :=
  let body := reversed.length - start
  if body = 0 then
    none
  else
    let last := (reversed.take body).takeWhile (· ≠ '/')
    let slash := if last.length < body then 1 else 0
    some (last, reversed.drop (last.length + slash))

/-- Drops components that name nothing, empty ones and `.`, from the end of a path. -/
def trimEmpty (start : Nat) : Nat → List Char → List Char
  | 0, reversed => reversed
  | n + 1, reversed =>
    match splitLast start reversed with
    | some (last, rest) => if last = [] ∨ last = ['.'] then trimEmpty start n rest else reversed
    | none => reversed

/-- The directory of a path; none for the root and for the empty path. -/
def parent? (path : String) : Option String :=
  let cs := path.toList
  let start := startLength cs
  let trim := trimEmpty start (cs.length + 1)
  match splitLast start (trim cs.reverse) with
  | some (_, rest) => some (String.ofList (trim rest).reverse)
  | none => if start = 1 ∧ cs.head? = some '.' then some "" else none

/-- A path below a directory. An absolute path stays as it is. -/
def join (dir path : String) : String :=
  if isAbsolute path then path
  else if dir.isEmpty || dir.toList.getLast? == some '/' then dir ++ path
  else dir ++ "/" ++ path

/-- The parts of a path between slashes, the empty ones too. -/
def components (path : String) : List String :=
  (path.toList.splitOn '/').map String.ofList

/-- The path up to each of its components, the shortest first and the path itself last. -/
def stages (path : String) : List String :=
  let parts := components path
  (List.range parts.length).map fun n => String.intercalate "/" (parts.take (n + 1))

end Path
end Host
end Ditlang
