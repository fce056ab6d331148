import Ditlang.Eval.Basic
import Ditlang.Heap.Assign
import Ditlang.Heap.Classes
import Ditlang.Heap.Tree

/-!
# Ditlang.Eval.Reading

Going through the tokens of a body. The evaluator looks one token ahead; names are looked up at the
moment a token is scanned, so a name is known from the statement after its declaration on.
-/

namespace Ditlang
namespace Eval

open Source (Location View Feed)

def advance (resolveNames : Bool) : Eval Unit := fun s =>
  let r := s.reading
  match Lexer.next (s.session.heap.resolver r.body) resolveNames r.feed with
  | (.ok token, feed) =>
    .done () { s with reading := { r with feed, prev := r.curr, curr := r.next, next := token } }
  | (.error e, feed) =>
    .failed (.diagnostic e.diagnostic) { s with reading := { r with feed } }

def nextIs (kind : TokenKind) : Eval Bool :=
  gets fun s => s.reading.next.kind == kind

def nextIsPunct (p : Punct) : Eval Bool :=
  nextIs (.punct p)

def failAtNext {α : Type} (message : String) : Eval α := do
  malformedAt message (← next).loc

/-- Fails just past the last token that was taken. -/
def failAfterCurr {α : Type} (message : String) : Eval α := do
  malformedAt message (← curr).endLoc

/-- Checks that the statement ends here: with a `;`, or at the end of a fragment. -/
def expectTerminal : Eval Unit := do
  let r ← reading
  match r.next.kind with
  | .punct .semi => pure ()
  | .eof => if r.fragment then pure () else failAfterCurr "Expected ';'"
  | _ => failAfterCurr "Expected ';'"

def undeclared {α : Type} (t : Token) : Eval α :=
  malformedAt ("Undeclared variable '" ++ t.word ++ "'") t.loc

/-- Scans something other than a token where the reading stands. -/
def scan {α : Type} (f : Feed → Except LexError α × Feed) : Eval α := fun s =>
  match f s.reading.feed with
  | (.ok a, feed) => .done a { s with reading := { s.reading with feed } }
  | (.error e, feed) =>
    .failed (.diagnostic e.diagnostic) { s with reading := { s.reading with feed } }

/-- With an opening brace ahead, takes the body up to the brace that closes it, and leaves that
brace ahead. -/
def captureBody (what : String) : Eval View := do
  if ← nextIsPunct .braceLeft then
    let view ← scan Lexer.captureBraces
    advance true
    pure view
  else
    failAfterCurr ("Expected '\x7b' to open the " ++ what ++ " body")

/-- With a quote ahead, takes the string after it and the closing quote. -/
def stringLiteral : Eval String := do
  let quote : UInt8 := if ← nextIsPunct .quoteDouble then 34 else 39
  let text ← scan (Lexer.scanString quote)
  advance true
  advance true
  pure text

def bodySource (view : View) (defLoc : Location) : Eval Body := do
  pure { path := (← reading).path, view, defLoc, interpreted := false }

/-- Checks that a definition has a name and that the name is new in this body. -/
def checkNewName (name : Option String) (what : String) (loc : Location) : Eval Unit := do
  match name with
  | none => malformedAt ("Expected a " ++ what ++ " name") loc
  | some name =>
    if ((← heap).findLocal? (← reading).body name).isSome then
      malformedAt (HeapFault.alreadyDeclared name).message loc

def declareIn (owner : ContainerId) (name : String) (d : Declared) (loc : Location) :
    Eval SlotId := do
  let (s, h) ← ofHeapAt loc ((← heap).declare owner name d)
  setHeap h
  pure s

def assignSlot (s : SlotId) (v : Value) : Eval Unit := do
  let h ← ofHeap ((← heap).assign s v)
  setHeap (h.warmAssign s v)

/-- Declares a name in this body and assigns to it. -/
def bindName (name : String) (ty : TypeSpec) (v : Value) (loc : Location) : Eval Unit := do
  let s ← declareIn (← reading).body name (.scalar ty) loc
  assignSlot s v

/-- The text of a value. A value that contains itself has none. -/
def render (v : Value) : Eval String := do
  ofOption ((← heap).render? v)

end Eval
end Ditlang
