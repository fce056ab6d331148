import Ditlang.Eval.Calls

/-!
# Ditlang.Eval.Paths

Expression paths: a name, and every `.member` and `(arguments)` after it; sums of terms; and the
arguments of a call.
-/

namespace Ditlang
namespace Eval

/-- The sum of two numbers or of two strings. -/
def add (a b : Value) : Eval Value := do
  match a, b with
  | .num x, .num y => pure (.num (x.add y))
  | .str x, .str y => pure (.str (x ++ y))
  | _, _ =>
    let h ← heap
    raise ((Diagnostic.typeMismatch
      ("Cannot add " ++ h.valueLabel a ++ " and " ++ h.valueLabel b)).at_ (← reading).prev.loc)

/-- Adds the terms that follow a value. -/
def continueExpression (d : Deeper) (v : Value) : Eval Value :=
  repeatTokens
    (fun v => do
      if ← nextIsPunct .plus then
        advance true
        let w ← d.term
        return .inl (← add v w)
      else
        return .inr v)
    v

/-- Evaluates an expression: terms with `+` between them. -/
def expression (d : Deeper) : Eval Value := do
  let v ← d.term
  continueExpression d v

/-- Takes expressions separated by commas up to a closing token; a comma may stand before it. -/
def expressionsUntil (d : Deeper) (close : Punct) (message : String) : Eval (List Value) :=
  repeatTokens
    (fun (values : List Value) => do
      if ← nextIsPunct close then
        advance true
        return .inr values.reverse
      else
        let v ← expression d
        if ← nextIsPunct .comma then
          advance true
        else if !(← nextIsPunct close) then
          failAfterCurr message
        return .inl (v :: values))
    []

/-- The arguments of a call, with the opening parenthesis ahead. -/
def arguments (d : Deeper) : Eval (List Value) := do
  advance true
  expressionsUntil d .parenRight "Expected ')'"

/-- A member of a value. The class it may come from is interpreted first. -/
def containerMember (d : Deeper) (base : Value) (qualifier : Option ContainerId) (name : String) :
    Eval Operand := do
  let loc := (← curr).loc
  match qualifier.or ((← heap).classOfValue? base) with
  | some c => framed loc "class" (ensureReady d c)
  | none => pure ()
  setHeap ((← heap).warmMember base qualifier name)
  match ← ofHeapAt loc ((← heap).member base qualifier name) with
  | .slot s => pure (.slot s)
  | other => pure (.member other)

def memberName : Eval String := do
  advance false
  if ← nextIs .word then
    advance true
    pure (← curr).word
  else
    failAtNext "Expected a name after '.'"

/-- Goes one member further along a path, with the dot ahead. -/
def memberStep (d : Deeper) (o : Operand) : Eval Operand := do
  let name ← memberName
  match o with
  | .json root keys => pure (.json root (keys ++ [name]))
  | .member (.qualifier base c) => containerMember d base (some c) name
  | _ =>
    let v ← read o
    match o, v with
    | _, .jsonRef m => pure (.json (.map m) [name])
    | .slot s, .null =>
      if (← heap).growsJson s then pure (.json (.slot s) [name])
      else containerMember d .null none name
    | _, v => containerMember d v none name

def callStep (d : Deeper) [Calling d] (o : Operand) : Eval Value := do
  let callee ← read o
  let loc := (← next).loc
  let args ← arguments d
  match callee with
  | .funcRef f => framed loc ((← heap).nameOf f) (Calling.call d f args)
  | .classRef c =>
    if args.isEmpty then
      framed loc "class" (ensureReady d c)
      pure (.instanceRef (← withHeap (·.newInstance c)))
    else
      malformedAt "Class instantiation takes no arguments" loc
  | other => malformedAt ("'" ++ other.typeName ++ "' is not callable") loc

/-- Follows every member and call after an operand. -/
def followPath (d : Deeper) [Calling d] (o : Operand) : Eval Operand :=
  repeatTokens
    (fun o => do
      match (← next).kind with
      | .punct .dot => return .inl (← memberStep d o)
      | .punct .parenLeft => return .inl (.value (← callStep d o))
      | _ => return .inr o)
    o

/-- Takes a resolved name and what follows it. -/
def operand (d : Deeper) [Calling d] : Eval Operand := do
  advance true
  let t ← curr
  match t.slot? with
  | some s => followPath d (.slot s)
  | none => raise ((Diagnostic.critical "Resolved token without a slot").at_ t.loc)

/-- Loads the dit that an import names. -/
def loadImport (d : Deeper) (path : Value) (loc : Source.Location) : Eval ContainerId := do
  match path with
  | .str target => framed loc "import" (importDit d target (← reading).path)
  | other =>
    malformedAt
      ("Expected a filepath string for import, got '" ++ other.typeName ++ "'") loc

end Eval
end Ditlang
