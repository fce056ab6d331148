import Ditlang.Eval.Deeper
import Ditlang.Guest.Fencing

/-!
# Ditlang.Eval.Calls

Calling functions. Arguments are checked before anything else happens; then a built-in function
answers at once, a Ditlang body runs in a new frame, and a guest body is written to a file and
handed to a worker, whose requests are evaluated in the frame until it finishes.
-/

namespace Ditlang

/-- Why a call does not fit its function. -/
inductive CallFault where
  | missing (func : String) (params : List String)
  | tooMany (func : String) (expected given : Nat)
  | argument (expected param actual : String)
  | result (expected actual : String)
deriving DecidableEq, Repr

namespace CallFault

def message : CallFault → String
  | .missing func params =>
    func ++ " missing " ++ toString params.length ++ " required arguments: "
      ++ ", ".intercalate params
  | .tooMany func expected given =>
    func ++ " takes " ++ toString expected ++ " arguments but " ++ toString given ++ " were given"
  | .argument expected param actual =>
    "Expected '" ++ expected ++ "' for parameter '" ++ param ++ "', got '" ++ actual ++ "'"
  | .result expected actual =>
    "Expected '" ++ expected ++ "' for return, got '" ++ actual ++ "'"

def diagnostic (f : CallFault) : Diagnostic :=
  match f with
  | .missing _ _ | .tooMany _ _ _ => .malformed f.message
  | .argument _ _ _ | .result _ _ => .typeMismatch f.message

end CallFault

namespace Heap

/-- Checks the arguments of a call: their number, then the type of each. -/
def checkArguments (h : Heap) (func : String) (params : List Param) (args : List Value) :
    Except CallFault Unit :=
  if args.length < params.length then
    .error (.missing func ((params.drop args.length).map (·.name)))
  else if params.length < args.length then
    .error (.tooMany func params.length args.length)
  else
    match (params.zip args).findSome? fun (p, v) => (h.checkValue v p.declared).map (p, ·) with
    | some (p, m) => .error (.argument m.expected p.name m.actual)
    | none => .ok ()

/-- Checks the result of a call; a `void` function returns null. -/
def checkReturn (h : Heap) (v : Value) : Option Declared → Except CallFault Value
  | none => if v.isNull then .ok .null else .error (.result "void" (h.valueLabel v))
  | some d =>
    match h.checkValue v d with
    | some m => .error (.result m.expected m.actual)
    | none => .ok v

/-- Keeps the ancestries that the check of a result asks for; without a type it asks for none. -/
def warmReturn (h : Heap) (v : Value) (ret : Option Declared) : Heap :=
  h.warmCheck v (ret.getD (.scalar .thing))

end Heap

namespace Guest

/-- Bends a value that came as plain JSON toward the type a function declares for its result. -/
def coerce (ret : Option Declared) (v : Value) : Value :=
  match ret with
  | some ⟨ty, false⟩ =>
    match ty, v with
    | .num, .str text => ((Number.read? (Text.trim text)).map Value.num).getD v
    | .str, .num x => .str x.display
    | .str, .bool b => .str (if b then "true" else "false")
    | .bool, .str text =>
      if text = "true" || text = "True" then .bool true
      else if text = "false" || text = "False" then .bool false
      else v
    | _, _ => v
  | _ => v

/-- The name of a function in the name of its file: one without a name goes by its number. -/
def stemOf (name : String) (c : ContainerId) : String :=
  if name = "anonymous" then "anonymous" ++ toString c.index else name

end Guest

namespace Eval

open Source (View)

def builtin (b : Builtin) (args : List Value) : Eval Value := do
  match b, args with
  | .print, args =>
    let line ← render (args.head?.getD .null)
    modifySession fun s => { s with host := s.host.printLine line }
    pure .null
  | .str, args => pure (.str (← render (args.head?.getD (.str ""))))
  | .append, [.listRef l, v] =>
    let h ← ofHeap ((← heap).append l v)
    setHeap (h.warmAppend l v)
    pure .null
  | .append, [other, _] =>
    raise (.typeMismatch ("append expects a list, got '" ++ other.typeName ++ "'"))
  | .append, _ => raise (.critical "append called with the wrong arity")
  | .len, args =>
    let count (n : Nat) : Eval Value := pure (.num (.ofNat n))
    match args.head? with
    | some (.str s) => count s.length
    | some (.listRef l) => count ((← heap).list l).items.length
    | some (.jsonRef m) => count ((← heap).map m).size
    | some other =>
      raise (.typeMismatch
        ("len expects Str, a list or JSON, got '" ++ (← heap).valueLabel other ++ "'"))
    | none => count 0

/-- The body of a container that must have one. -/
def bodyOf (c : ContainerId) : Eval Body := do
  let h ← heap
  match (h.container c).body with
  | some b => pure b
  | none => raise (.critical ("'" ++ h.nameOf c ++ "' has no body"))

/-- The text of a guest body for its file; a fault in it is placed in the body. -/
def guestSource (b : Body) (markers : Guest.Markers) : Eval String :=
  ofDiagnostic <| (Guest.preprocess b.view markers).mapError fun d =>
    let loc := d.pending.getD b.defLoc
    d.annotate b.path loc (b.view.lineText loc.pos)

def claimFileName (fileOf : String → String) (base : String) : Eval String := do
  let s ← session
  let name := s.freeFileName fileOf base (s.guestFiles.length + 1) 1
  modifySession fun s => { s with guestFiles := name :: s.guestFiles }
  pure name

def writeGuestFile (name contents : String) : Eval String := do
  let s ← session
  let (result, host) := s.host.writeInto s.tmpDir name contents
  modifySession ({ · with host })
  match result with
  | .ok path => pure path
  | .error e => fail (.io e.message)

/-- The file of a guest function, written when it is called for the first time. -/
def guestFile (func : ContainerId) (data : FuncData) (lang : ContainerId) : Eval String := do
  match data.guestPath with
  | some path => pure path
  | none =>
    let b ← bodyOf func
    let h ← heap
    let markers ← ofHeap (Guest.Markers.ofLang h lang)
    note (.fenced func b.path b.view)
    let contents ← guestSource b markers
    let fileOf (stem : String) := Guest.fileName (h.nameOf lang) stem markers.extension
    let name ← claimFileName fileOf (Guest.stemOf (h.nameOf func) func)
    let path ← writeGuestFile name contents
    setHeap ((← heap).modifyContainer func fun c =>
      { c with kind := .func { data with guestPath := some path } })
    pure path

/-- What is needed to start a worker for a Lang, from the properties of the Lang. -/
def launchSpec (h : Heap) (lang : ContainerId) : Except HeapFault Guest.LaunchSpec := do
  let executable ← h.langProp lang "executable_path"
  let extension ← h.langProp lang "file_extension"
  let driver ← h.langProp lang "guest_daemon"
  pure { lang := h.nameOf lang, executable, extension, driver }

/-- Runs a guest job to its next answer. -/
def runJob (spec : Guest.LaunchSpec) (job : Guest.Job) : Eval Guest.Job := do
  let (result, s) ← ofOption ((← session).runJob spec job)
  modifySession fun _ => s
  ofDiagnostic result

/-- Evaluates what a guest function asks for, in the frame of its call. -/
def callback (d : Deeper) (frame : ContainerId) (code : String) : Eval Value := do
  let path := match ((← heap).container frame).body with
    | some b => b.path ++ " (exe_ditlang)"
    | none => "exe_ditlang"
  let result ← d.body frame path (.ofText code) true
  match result.signal with
  | .returned v => pure v
  | .thrown v => uncaught v
  | .normal => pure (result.lastValue.getD .null)

/-- One job of a guest function: it ends the call, or its request is answered by the next job. -/
def converseStep (d : Deeper) (frame : ContainerId) (spec : Guest.LaunchSpec) (func : String)
    (job : Guest.Job) : Eval (Guest.Job ⊕ Value) := do
  let finished ← runJob spec job
  match finished.kind with
  | .finishFunc => return .inr (← withHeap (·.ofJson finished.result))
  | .exeDitlang =>
    let v ← callback d frame finished.resultText
    return .inl (finished.callback (← ofOption ((← heap).toJson? v)))
  | other => raise (.critical ("Guest job for '" ++ func ++ "' ended as " ++ other.name))

/-- Runs a guest function to its end, answering its requests on the way. -/
def converse (d : Deeper) (frame : ContainerId) (spec : Guest.LaunchSpec) (func : String)
    (job : Guest.Job) : Eval Value :=
  repeatUpTo d.rounds (converseStep d frame spec func) job

/-- Calls a guest function whose parameters are in the frame. -/
def callGuest (d : Deeper) (func : ContainerId) (data : FuncData) (frame lang : ContainerId) :
    Eval Value := do
  let path ← guestFile func data lang
  let h ← heap
  let spec ← ofHeap (launchSpec h lang)
  converse d frame spec (h.nameOf func) (.call (h.nameOf lang) (h.nameOf func) path)

/-- A new frame for a call, with the parameters bound to the arguments. -/
def newFrame (func : ContainerId) (params : List Param) (args : List Value) : Eval ContainerId := do
  let c := (← heap).container func
  let frame ← withHeap (·.alloc
    { name := some c.displayName, kind := .frame func, scope := c.scope, body := c.body })
  for (param, arg) in params.zip args do
    let (s, h) ← ofHeap ((← heap).declare frame param.name param.declared)
    setHeap h
    assignSlot s arg
  pure frame

def callDitlang (d : Deeper) (func frame : ContainerId) : Eval Value := do
  let b ← bodyOf func
  let result ← d.body frame b.path b.view false
  match result.signal with
  | .normal => pure .null
  | .returned v => pure v
  | .thrown v => uncaught v

/-- What a call gives, if it is of the declared type. -/
def checkedResult (ret : Option Declared) (v : Value) : Eval Value := do
  setHeap ((← heap).warmReturn v ret)
  ofDiagnostic (((← heap).checkReturn v ret).mapError (·.diagnostic))

def callFunction (d : Deeper) (func : ContainerId) (args : List Value) : Eval Value := do
  let h ← heap
  match (h.container func).kind with
  | .func data =>
    ofDiagnostic ((h.checkArguments (h.nameOf func) data.params args).mapError (·.diagnostic))
    match data.native with
    | some b => builtin b args
    | none =>
      let frame ← newFrame func data.params args
      let v ← match data.lang with
        | .ditlang => callDitlang d func frame
        | .guest lang => do
          let v ← callGuest d func data frame lang
          pure (Guest.coerce data.ret v)
      checkedResult data.ret v
  | _ => raise (.critical ("'" ++ h.nameOf func ++ "' is not a function"))

/-- How functions are called from a level. -/
class Calling (d : Deeper) where
  call : ContainerId → List Value → Eval Value

/-- A program calls its functions. What comes before a call does not depend on that, so it can also be
looked at with other calls. -/
instance (d : Deeper) : Calling d := ⟨callFunction d⟩

def loadSource (path : String) : Eval String := do
  let (source, host) := (← session).host.load path
  modifySession ({ · with host })
  ofDiagnostic source

/-- Loads and runs another dit. A relative target is taken relative to the importing file. -/
def importDit (d : Deeper) (target importer : String) : Eval ContainerId := do
  let s ← session
  let path := Host.resolveImport target importer
  let source ← loadSource path
  let view := View.ofText source
  let dit ← withHeap (·.alloc
    { name := some path
      kind := .dit
      scope := some s.prelude
      body := some { path, view, defLoc := .start, interpreted := true } })
  let result ← d.body dit path view false
  match result.signal with
  | .thrown v => uncaught v
  | _ => pure dit

end Eval
end Ditlang
