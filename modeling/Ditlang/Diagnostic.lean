import Ditlang.Source.Basic
import Ditlang.Text.Blank

/-!
# Ditlang.Diagnostic

Diagnostics as users see them: a kind and a message, where the fault was raised, the calls,
imports and bodies it passed on its way out, and notes. The place is attached once, by the first
body that lets the fault out; `annotate` never changes it again.
-/

namespace Ditlang

open Source (Location)

/-- Why a source file could not be read. -/
inductive FileFailure where
  | notFound | permissionDenied | notAFile | transport
deriving DecidableEq, Repr

inductive FaultKind where
  | malformed
  | typeMismatch
  | missingProp
  | file (failure : FileFailure)
  | code
  | critical
  | thrown
deriving DecidableEq, Repr

/-- The word a message starts with. -/
def FaultKind.label : FaultKind → String
  | .malformed => "SyntaxError"
  | .typeMismatch => "TypeMismatchError"
  | .missingProp => "MissingPropError"
  | .file _ => "FileError"
  | .code => "CodeError"
  | .critical => "CriticalError"
  | .thrown => "UncaughtThrow"

/-- Where a fault was raised, with the source line it was raised in. -/
structure Origin where
  path : String
  loc : Location
  code : String
deriving DecidableEq, Repr

/-- An import, a body or a call that a fault passed on its way out. -/
structure TraceFrame where
  path : String
  loc : Location
  tag : String
deriving DecidableEq, Repr

structure Diagnostic where
  kind : FaultKind
  message : String
  origin : Option Origin := none
  /-- The place of a fault whose path is not yet known. -/
  pending : Option Location := none
  trace : List TraceFrame := []
  notes : List String := []
deriving DecidableEq, Repr

namespace Diagnostic

/-- A fault in the text of a program. -/
def malformed (message : String) : Diagnostic :=
  { kind := .malformed, message }

/-- A value that does not fit where it is put. -/
def typeMismatch (message : String) : Diagnostic :=
  { kind := .typeMismatch, message }

/-- A state that should not arise. -/
def critical (message : String) : Diagnostic :=
  { kind := .critical, message }

/-- Records the place of a fault before its path is known. -/
def at_ (d : Diagnostic) (loc : Location) : Diagnostic :=
  { d with pending := some loc }

def withNote (d : Diagnostic) (note : String) : Diagnostic :=
  { d with notes := d.notes ++ [note] }

def isAnnotated (d : Diagnostic) : Bool :=
  d.origin.isSome

/-- Attaches the origin, unless there is one. A pending place takes precedence over `loc`. -/
def annotate (d : Diagnostic) (path : String) (loc : Location) (code : String) : Diagnostic :=
  if d.isAnnotated then d
  else { d with origin := some ⟨path, d.pending.getD loc, code⟩, pending := none }

def addTrace (d : Diagnostic) (path : String) (loc : Location) (tag : String) : Diagnostic :=
  { d with trace := d.trace ++ [⟨path, loc, tag⟩] }

def placeText (path : String) (loc : Location) : String :=
  "\"" ++ path ++ "\", line " ++ toString loc.line ++ ", col " ++ toString loc.col

/-- The source line of an origin and a caret under its column; nothing for a blank line. -/
def codeLines (o : Origin) : List String :=
  let code := Text.trimEnd o.code
  if code.isEmpty then
    []
  else
    let shown := Text.trimStart code
    let indent := code.utf8ByteSize - shown.utf8ByteSize
    let caret := o.loc.col - 1 - indent
    ["    " ++ shown, "    " ++ String.ofList (List.replicate caret ' ') ++ "^"]

/-- The lines of a report before the message: the trace, last frame first, and the origin. -/
def traceback (d : Diagnostic) : List String :=
  let head :=
    if d.trace.isEmpty && d.origin.isNone then [] else ["Traceback (most recent call last):"]
  let frames := d.trace.reverse.map fun f => "  " ++ f.tag ++ " at " ++ placeText f.path f.loc
  let origin := match d.origin with
    | none => []
    | some o => ("  " ++ placeText o.path o.loc) :: codeLines o
  head ++ frames ++ origin

def report (d : Diagnostic) : String :=
  "\n".intercalate
    (d.traceback ++ [d.kind.label ++ ": " ++ d.message] ++ d.notes.map ("  note: " ++ ·))

end Diagnostic

inductive Failure where
  | diagnostic (d : Diagnostic)
  /-- A file could not be written. -/
  | io (reason : String)
deriving DecidableEq, Repr

namespace Failure

def report : Failure → String
  | .diagnostic d => d.report
  | .io reason => "I/O error: " ++ reason

def mapDiagnostic (f : Diagnostic → Diagnostic) : Failure → Failure
  | .diagnostic d => .diagnostic (f d)
  | .io reason => .io reason

def isAnnotated : Failure → Bool
  | .diagnostic d => d.isAnnotated
  | .io _ => false

/-- Adds a trace frame to a failure that has passed a body already. -/
def traced (e : Failure) (path : String) (loc : Location) (tag : String) : Failure :=
  if e.isAnnotated then e.mapDiagnostic (·.addTrace path loc tag) else e

end Failure
end Ditlang
