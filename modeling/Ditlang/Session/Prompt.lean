import Ditlang.Session.Run
import Ditlang.Text.Blank
import Ditlang.Text.Cluster

/-!
# Ditlang.Session.Prompt

A session at a prompt. Every line is run as a fragment; its value is printed unless it is null, and
a failure is reported without ending the session. Blank lines are passed over and `.exit` ends the
session.
-/

namespace Ditlang
namespace Session

/-- The lines of an input, without their line breaks. -/
def linesOf (input : String) : List String :=
  let lines := input.splitOn "\n"
  if lines.getLast? = some "" then lines.dropLast else lines

/-- Takes characters of `n` bytes from the end of a text; the text is in reverse order. -/
def dropBytes : Nat → List Char → List Char
  | 0, kept => kept
  | _ + 1, [] => []
  | n + 1, c :: kept => dropBytes (n + 1 - c.utf8Size) kept

/-- The characters that are left when every backspace takes back the cluster before it; `kept` holds
those before, last one first, and `sizes` how many bytes each cluster of them counts. The count of a
cluster is one byte wide. -/
def eraseBack (kept : List Char) (sizes : List Nat) : List (List Char) → List Char
  | [] => kept.reverse
  | g :: rest =>
    if g = [Char.ofNat 8] then
      match sizes with
      | [] => eraseBack kept [] rest
      | n :: sizes => eraseBack (dropBytes n kept) sizes rest
    else
      let size := (g.map Char.utf8Size).sum % 256
      eraseBack (g.reverse ++ kept) (size :: sizes) rest

def applyBackspaces (line : String) : String :=
  String.ofList (eraseBack [] [] (Text.clusters line.toList))

/-- What a line at the prompt asks for. -/
inductive PromptLine where
  | blank
  | exit
  | input (text : String)
deriving DecidableEq, Repr

/-- Reads a line at the prompt. -/
def PromptLine.ofText (line : String) : PromptLine :=
  let line := Text.trim (applyBackspaces line)
  if line = ".exit" then .exit
  else if line.isEmpty then .blank
  else .input line

/-- Runs one line, and returns what is reported as a failure. -/
def promptLine (s : Session) (line : String) : Option (String × Session) :=
  match s.evalLine line with
  | none => none
  | some (.error e, s) => some (e.report ++ "\n", s)
  | some (.ok none, s) => some ("", s)
  | some (.ok (some v), s) =>
    if v.isNull then
      some ("", s)
    else
      (s.heap.render? v).map fun text => ("", { s with host := s.host.printLine text })

/-- Runs lines until they end or one of them is `.exit`, and returns all failures reported. -/
def prompt : List String → Session → Option (String × Session)
  | [], s => some ("", s)
  | line :: rest, s =>
    match PromptLine.ofText line with
    | .exit => some ("", s)
    | .blank => prompt rest s
    | .input text => do
      let (reported, s) ← s.promptLine text
      let (more, s) ← prompt rest s
      pure (reported ++ more, s)

end Session
end Ditlang
