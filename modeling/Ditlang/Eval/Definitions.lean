import Ditlang.Eval.Paths

/-!
# Ditlang.Eval.Definitions

Types in declarations, and the definitions of classes, functions and Langs. The body of a class or
a function is only captured here; it is interpreted when it is needed. The body of a Lang is
interpreted at once, and a Lang of a known name is merged with the one that is known.
-/

namespace Ditlang
namespace Eval

open Source (Location)

/-- Takes a type, leaving ahead whatever follows it. -/
def parseType (d : Deeper) [Calling d] : Eval Declared := do
  let list ← nextIs (.keyword .listOfKw)
  if list then
    advance true
  let t ← next
  match t.kind with
  | .keyword (.primitive p) =>
    advance true
    pure ⟨.ofPrimitive p, list⟩
  | .value _ =>
    match ← read (← operand d) with
    | .classRef c => pure ⟨.of c, list⟩
    | other => malformedAt ("Expected a type, got '" ++ other.typeName ++ "'") t.loc
  | .newName => undeclared t
  | _ => malformedAt "Expected a type" t.loc

def parentClasses (d : Deeper) [Calling d] : Eval (List ContainerId) := do
  if ← nextIs (.keyword .extendsKw) then
    repeatTokens
      (fun (parents : List ContainerId) => do
        advance true
        let t ← next
        match t.kind with
        | .value _ =>
          match ← read (← operand d) with
          | .classRef c =>
            if ← nextIsPunct .comma then
              return .inl (parents ++ [c])
            else
              return .inr (parents ++ [c])
          | other =>
            malformedAt
              ("Classes can only extend classes, got '" ++ other.typeName ++ "'") t.loc
        | .newName => undeclared t
        | _ => malformedAt "Expected a class to extend" t.loc)
      []
  else
    pure []

/-- Takes a word if one is ahead, whatever it names. -/
def optionalWord : Eval (Option String) := do
  if ← nextIs .word then
    let word := (← next).word
    advance true
    pure (some word)
  else
    pure none

/-- Makes a class the last parent of another one. -/
def extendClass (c parent : ContainerId) (loc : Location) : Eval Unit := do
  setHeap (← ofHeapAt loc ((← heap).addParent c parent))

/-- Defines a class; as a statement it needs a new name. -/
def classDefinition (d : Deeper) [Calling d] (statement : Bool) : Eval Value := do
  let defLoc := (← next).loc
  advance false
  let name ← optionalWord
  if statement then
    checkNewName name "class" defLoc
  let parents ← parentClasses d
  let view ← captureBody "class"
  let body ← bodySource view defLoc
  let scope := (← reading).body
  let c ← withHeap (·.alloc { name, kind := .cls {}, scope := some scope, body := some body })
  for parent in parents do
    framed defLoc "extends" (ensureReady d parent)
    extendClass c parent defLoc
  match statement, name with
  | true, some name => bindName name .cls (.classRef c) defLoc
  | _, _ => pure ()
  pure (.classRef c)

/-- The parameters of a function, with the opening parenthesis ahead. -/
def parameters (d : Deeper) [Calling d] : Eval (List Param) := do
  advance true
  repeatTokens
    (fun (params : List Param) => do
      if ← nextIsPunct .parenRight then
        advance true
        return .inr params
      else
        let declared ← parseType d
        let t ← next
        match t.name? with
        | none => malformedAt "Expected a parameter name" t.loc
        | some name =>
          if params.any (·.name == name) then
            malformedAt ("Duplicate parameter '" ++ name ++ "'") t.loc
          advance true
          if ← nextIsPunct .comma then
            advance true
          else if !(← nextIsPunct .parenRight) then
            failAfterCurr "Expected ')'"
          return .inl (params ++ [⟨name, declared⟩]))
    []

def lowered (word : String) : String :=
  String.ofList (word.toList.map Char.toLower)

/-- The diagnostic of a Lang that nothing declares, with a hint if only its case is wrong. -/
def undeclaredLang (word : String) (loc : Location) : Diagnostic :=
  let diagnostic := (Diagnostic.malformed ("Undeclared Lang '" ++ word ++ "'")).at_ loc
  if lowered word = "javascript" then diagnostic.withNote "Did you mean 'JavaScript'?"
  else if lowered word = "python" then diagnostic.withNote "Did you mean 'Python'?"
  else diagnostic

def funcLang (d : Deeper) [Calling d] : Eval FuncLang := do
  let t ← next
  match t.kind with
  | .keyword .ditlangKw =>
    advance true
    pure .ditlang
  | .value _ =>
    match ← read (← operand d) with
    | .langRef lang => pure (.guest lang)
    | other => malformedAt ("Expected a Lang for func, got '" ++ other.typeName ++ "'") t.loc
  | .newName => raise (undeclaredLang t.word t.loc)
  | _ => malformedAt "Expected a Lang or 'Ditlang' after 'func'" t.loc

/-- The type of the result of a function; none for `void`. -/
def returnType (d : Deeper) [Calling d] : Eval (Option Declared) := do
  if ← nextIs (.keyword .voidKw) then
    advance true
    pure none
  else
    pure (some (← parseType d))

def funcName : Eval (Option String) := do
  let t ← next
  if t.kind = .punct .parenLeft then
    pure none
  else
    match t.name? with
    | some name =>
      advance true
      pure (some name)
    | none => malformedAt "Expected parameter list" t.loc

/-- Defines a function; as a statement it needs a new name. -/
def funcDefinition (d : Deeper) [Calling d] (statement : Bool) : Eval Value := do
  let defLoc := (← next).loc
  advance true
  let lang ← funcLang d
  let ret ← returnType d
  let name ← funcName
  if statement then
    checkNewName name "function" defLoc
  if !(← nextIsPunct .parenLeft) then
    failAfterCurr "Expected parameter list"
  let params ← parameters d
  let view ← captureBody "function"
  let body ← bodySource view defLoc
  let scope := (← reading).body
  let f ← withHeap (·.alloc
    { name, kind := .func { params, ret, lang }, scope := some scope, body := some body })
  match statement, name with
  | true, some name => bindName name .func (.funcRef f) defLoc
  | _, _ => pure ()
  pure (.funcRef f)

/-- Defines a Lang. In the same body it is assigned over a name that is there; over a Lang of an
outer scope it is merged into a new one. -/
def langDefinition (d : Deeper) : Eval Unit := do
  let defLoc := (← next).loc
  advance false
  match ← optionalWord with
  | none => failAtNext "Expected a Lang name"
  | some name =>
    let view ← captureBody "lang"
    let body ← bodySource view defLoc
    let here := (← reading).body
    let lang ← withHeap (·.alloc
      { name := some name, kind := .lang, scope := some here, body := some body })
    framed defLoc "lang" (ensureReady d lang)
    let h ← heap
    match h.findLocal? here name with
    | some s => setHeap (← ofHeapAt defLoc (h.assign s (.langRef lang)))
    | none =>
      match (h.findInScope? here name).map h.value with
      | some (.langRef previous) =>
        let merged ← withHeap (·.mergeLangs previous lang)
        bindName name .lang (.langRef merged) defLoc
      | _ => bindName name .lang (.langRef lang) defLoc

end Eval
end Ditlang
