import Ditlang.Heap.Langs

/-!
# Ditlang.Guest.Fencing

Guest code with fences. In the body of a guest function `<|` and `|>` enclose a span of Ditlang,
and inside such a span `(|` and `|)` enclose guest code again; so guest code and Ditlang alternate
from level to level. Writing the body to a file replaces every fence by the text that the Lang
has for it and frames the result.
-/

namespace Ditlang
namespace Guest

open Source (Location View)

/-- The texts a Lang puts around guest code and in place of each fence. -/
structure Markers where
  wrapLeft : String
  wrapRight : String
  exportText : String
  extension : String
  triangleLeft : String
  triangleRight : String
  circleLeft : String
  circleRight : String
deriving DecidableEq, Repr

namespace Markers

/-- The markers of a Lang. Only the file extension is required. -/
def ofLang (h : Heap) (lang : ContainerId) : Except HeapFault Markers := do
  let optional (prop : String) := (h.langProp? lang prop).getD ""
  let extension ← h.langProp lang "file_extension"
  pure
    { wrapLeft := optional "function_wrap_left"
      wrapRight := optional "function_wrap_right"
      exportText := optional "export_string"
      extension := extension
      triangleLeft := optional "triangle_expr_left"
      triangleRight := optional "triangle_expr_right"
      circleLeft := optional "circle_expr_left"
      circleRight := optional "circle_expr_right" }

def ofFence (m : Markers) : Fence → String
  | .triangleLeft => m.triangleLeft
  | .triangleRight => m.triangleRight
  | .circleLeft => m.circleLeft
  | .circleRight => m.circleRight

end Markers

inductive Piece where
  | byte (b : UInt8)
  | fence (f : Fence) (loc : Location)
deriving DecidableEq, Repr

/-- The parts of a guest body: fences are found from left to right and do not overlap. -/
def pieces : Location → List UInt8 → List Piece
  | _, [] => []
  | _, [b] => [.byte b]
  | loc, a :: b :: rest =>
    match Fence.ofBytes? a b with
    | some f => .fence f loc :: pieces ((loc.after a).after b) rest
    | none => .byte a :: pieces (loc.after a) (b :: rest)

inductive FencingFault where
  | unexpected (f : Fence) (inGuest : Bool)
  | missing (closer : Fence)
deriving DecidableEq, Repr

def FencingFault.message : FencingFault → String
  | .unexpected f inGuest =>
    "Unexpected '" ++ f.text ++ "' in " ++ (if inGuest then "guest code" else "a Ditlang span")
  | .missing closer => "Missing closing '" ++ closer.text ++ "'"

/-- Opens or closes a level: the stack holds the places of the open fences, innermost first. At an
even depth the text is guest code. None if the fence may not stand here. -/
def stepFence (stack : List Location) (f : Fence) (loc : Location) : Option (List Location) :=
  let guest := stack.length % 2 == 0
  match f, stack with
  | .triangleLeft, _ => if guest then some (loc :: stack) else none
  | .triangleRight, _ :: outer => if guest then none else some outer
  | .circleLeft, _ => if guest then none else some (loc :: stack)
  | .circleRight, _ :: outer => if guest then some outer else none
  | _, [] => none

/-- Checks that fences alternate and are all closed. -/
def checkFences : List Location → List Piece → Except (FencingFault × Location) Unit
  | [], [] => .ok ()
  | opener :: outer, [] =>
    let closer := if (opener :: outer).length % 2 == 1 then Fence.triangleRight else .circleRight
    .error (.missing closer, opener)
  | stack, .byte _ :: rest => checkFences stack rest
  | stack, .fence f loc :: rest =>
    match stepFence stack f loc with
    | some stack => checkFences stack rest
    | none => .error (.unexpected f (stack.length % 2 == 0), loc)

/-- The bytes of a body with every fence replaced by its marker. -/
def substitute (m : Markers) (ps : List Piece) : List UInt8 :=
  ps.flatMap fun p =>
    match p with
    | .byte b => [b]
    | .fence f _ => Text.bytes (m.ofFence f)

/-- The file of a guest function body. -/
def preprocess (view : View) (m : Markers) : Except Diagnostic String :=
  let ps := pieces view.startLoc view.bytes
  match checkFences [] ps with
  | .error (fault, loc) => .error ((Diagnostic.malformed fault.message).at_ loc)
  | .ok () =>
    .ok (m.wrapLeft ++ Text.ofBytes (substitute m ps) ++ "\n" ++ m.wrapRight ++ "\n\n"
      ++ m.exportText)

def fileName (lang func extension : String) : String :=
  lang ++ "_func_" ++ func ++ "." ++ extension

end Guest
end Ditlang
