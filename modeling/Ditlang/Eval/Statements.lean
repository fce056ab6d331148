import Ditlang.Eval.Terms

/-!
# Ditlang.Eval.Statements

Statements, and running the statements of a body one after the other.
-/

namespace Ditlang
namespace Eval

open Source (Location View)

/-- The container in which a dotted declaration declares. -/
def declarationOwner (base : Value) (word : String) (loc : Location) : Eval ContainerId :=
  match base.container? with
  | some c => pure c
  | none => malformedAt ("Cannot declare '" ++ word ++ "' inside " ++ base.typeName) loc

/-- The target of a declaration: a name in this body, or a name in a container that a path leads
to. -/
def declarationTarget (d : Deeper) : Eval (ContainerId × String) := do
  let t ← next
  match t.name? with
  | none => malformedAt "Expected a name to declare" t.loc
  | some first =>
    advance true
    if ← nextIsPunct .dot then
      match t.slot? with
      | none => malformedAt ("Undeclared variable '" ++ first ++ "'") t.loc
      | some s =>
        repeatTokens
          (fun (base : Value) => do
            let word ← memberName
            if ← nextIsPunct .dot then
              let o ← containerMember d base none word
              return .inl (← read o)
            else
              let owner ← declarationOwner base word (← curr).loc
              return .inr (owner, word))
          ((← heap).value s)
    else
      pure ((← reading).body, first)

/-- The rest of a declaration after its type: a target and perhaps a value. -/
def declarationRest (d : Deeper) (declared : Declared) : Eval Unit := do
  let loc := (← next).loc
  let (owner, name) ← declarationTarget d
  let s ← declareIn owner name declared loc
  if ← nextIsPunct .equals then
    advance true
    let v ← expression d
    assignSlot s v
  expectTerminal

def keepValue (v : Value) : Eval Unit :=
  modifyReading ({ · with lastValue := some v })

/-- A statement that starts with a known name: a declaration with a class as its type, an
assignment, or an expression. -/
def valueStatement (d : Deeper) [Calling d] : Eval Unit := do
  let o ← operand d
  let named := match (← next).kind with
    | .newName | .value _ => true
    | _ => false
  let cls ← if named then (do
      match ← read o with
      | .classRef c => pure (some c)
      | _ => pure none)
    else pure none
  match cls with
  | some c => declarationRest d (.scalar (.of c))
  | none =>
    if ← nextIsPunct .equals then
      advance true
      let v ← expression d
      store o v
    else
      let v ← read o
      keepValue (← continueExpression d v)
    expectTerminal

/-- Makes the names of a dit known here. -/
def expose (dit : ContainerId) (loc : Location) : Eval Unit := do
  let here := (← reading).body
  for (name, s) in ((← heap).container dit).attrs.entries do
    setHeap (← ofHeapAt loc ((← heap).insertAlias here name s))

def importNames (d : Deeper) (path : Value) (loc : Location) : Eval Unit := do
  let dit ← loadImport d path loc
  expose dit loc
  expectTerminal

/-- An import: under a name, or of all names from a path given by a variable or an expression. -/
def importStatement (d : Deeper) [Calling d] : Eval Unit := do
  let defLoc := (← next).loc
  advance false
  let t ← next
  if t.kind = .word then
    advance true
    if ← nextIs (.keyword .fromKw) then
      checkNewName (some t.word) "import" defLoc
      advance true
      let path ← expression d
      let dit ← loadImport d path defLoc
      bindName t.word .dit (.ditRef dit) defLoc
      expectTerminal
    else
      match (← heap).findInScope? (← reading).body t.word with
      | none => undeclared t
      | some s =>
        let v ← read (← followPath d (.slot s))
        importNames d (← continueExpression d v) defLoc
  else
    importNames d (← expression d) defLoc

/-- Whether a `return` may stand here: in a function, or in a fragment. -/
def canReturn : Eval Bool := do
  let r ← reading
  match ((← heap).container r.body).kind with
  | .frame _ => pure true
  | _ => pure r.fragment

def returnStatement (d : Deeper) : Eval Signal := do
  if !(← canReturn) then
    failAtNext "'return' outside of function"
  advance true
  let r ← reading
  let bare := r.next.kind == .punct .semi || (r.next.kind == .eof && r.fragment)
  let v ← if bare then pure Value.null else expression d
  expectTerminal
  pure (.returned v)

def throwStatement (d : Deeper) : Eval Signal := do
  advance true
  let v ← expression d
  expectTerminal
  pure (.thrown v)

/-- An expression as a statement, which only a fragment may have. -/
def expressionStatement (d : Deeper) : Eval Unit := do
  keepValue (← expression d)
  expectTerminal

/-- Runs a statement that does not end the body. -/
def plainStatement (d : Deeper) [Calling d] (t : Token) : Eval Unit := do
  match t.kind with
  | .keyword (.primitive _) | .keyword .listOfKw => declarationRest d (← parseType d)
  | .value _ => valueStatement d
  | .keyword .classKw => discard (classDefinition d true)
  | .keyword .funcKw => discard (funcDefinition d true)
  | .keyword .langKw => langDefinition d
  | .keyword .importKw => importStatement d
  | .newName => undeclared t
  | kind =>
    if (← reading).fragment && kind.startsExpression then
      expressionStatement d
    else
      match kind with
      | .fence f =>
        malformedAt ("'" ++ f.text ++ "' is only allowed inside guest function bodies") t.loc
      | _ => malformedAt "Illegal start of statement" t.loc

/-- Runs one statement, with its first token ahead. -/
def statement (d : Deeper) [Calling d] : Eval Signal := do
  let t ← next
  match t.kind with
  | .keyword .returnKw => returnStatement d
  | .keyword .throwKw => throwStatement d
  | _ =>
    plainStatement d t
    pure .normal

/-- Runs statements to the end of the body, or to the first that returns or throws. -/
def statements (d : Deeper) [Calling d] : Eval Signal :=
  repeatTokens
    (fun () => do
      advance true
      match (← next).kind with
      | .eof => return .inr .normal
      | .punct .semi => return .inl ()
      | _ =>
        match ← statement d with
        | .normal => return .inl ()
        | signal => return .inr signal)
    ()

/-- Runs a body in a container. The reading of the body around it is kept, and a failure is placed
in the body it comes out of first. -/
def runBody (d : Deeper) [Calling d] (body : ContainerId) (path : String) (view : View) (fragment : Bool) :
    Eval BodyResult := fun s =>
  let outer := s.reading
  match statements d (s.enter body path view fragment) with
  | .done signal t =>
    .done ⟨signal, t.reading.lastValue⟩ ⟨t.session.note (.finished body signal), outer⟩
  | .failed e t =>
    let e := t.reading.annotate e
    .failed e ⟨t.session.note (.failed body e), outer⟩
  | .outOfFuel => .outOfFuel

mutual

/-- Evaluates a term, at most `fuel` levels deep. -/
def termAt : Nat → EvalState → Outcome Value
  | 0, _ => .outOfFuel
  | fuel + 1, s => term ⟨fuel, termAt fuel, bodyAt fuel⟩ s

/-- Runs a body, at most `fuel` levels deep. -/
def bodyAt : Nat → ContainerId → String → View → Bool → EvalState → Outcome BodyResult
  | 0, _, _, _, _, _ => .outOfFuel
  | fuel + 1, body, path, view, fragment, s =>
    runBody ⟨fuel, termAt fuel, bodyAt fuel⟩ body path view fragment s

end

end Eval
end Ditlang
