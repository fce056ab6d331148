import Ditlang.Eval.Definitions

/-!
# Ditlang.Eval.Terms

Terms: literals, lists, JSON maps, anonymous classes and functions, imports and paths.
-/

namespace Ditlang
namespace Eval

/-- A list, with the opening bracket ahead. -/
def listLiteral (d : Deeper) : Eval Value := do
  advance true
  let items ← expressionsUntil d .bracketRight "Expected ']'"
  pure (.listRef (← withHeap (·.newList .thing items)))

def jsonKey : Eval String := do
  let t ← next
  match t.kind with
  | .punct .quoteDouble | .punct .quoteSingle => stringLiteral
  | _ =>
    match t.name? with
    | some word =>
      advance true
      pure word
    | none => malformedAt "Expected a JSON key" t.loc

/-- A JSON map, with the opening brace ahead. -/
def jsonLiteral (d : Deeper) : Eval Value := do
  advance true
  let entries ← repeatTokens
    (fun (entries : OrderedMap Value) => do
      if ← nextIsPunct .braceRight then
        advance true
        return .inr entries
      else
        let key ← jsonKey
        if !(← nextIsPunct .colon) then
          failAfterCurr "Expected ':'"
        advance true
        let v ← expression d
        if ← nextIsPunct .comma then
          advance true
        else if !(← nextIsPunct .braceRight) then
          failAfterCurr "Expected '\x7d'"
        return .inl (entries.insert key v))
    .empty
  pure (.jsonRef (← withHeap (·.newMap entries)))

/-- What follows an anonymous class or function: its closing brace is still ahead. -/
def anonymousTail (d : Deeper) [Calling d] (v : Value) : Eval Value := do
  advance true
  read (← followPath d (.value v))

def term (d : Deeper) [Calling d] : Eval Value := do
  let t ← next
  match t.kind with
  | .punct .quoteDouble | .punct .quoteSingle => pure (.str (← stringLiteral))
  | .number =>
    advance true
    match (← curr).payload with
    | .number x => pure (.num x)
    | _ => raise (.critical "Number token without a value")
  | .keyword .trueKw =>
    advance true
    pure (.bool true)
  | .keyword .falseKw =>
    advance true
    pure (.bool false)
  | .keyword .nullKw =>
    advance true
    pure .null
  | .punct .bracketLeft => listLiteral d
  | .punct .braceLeft => jsonLiteral d
  | .keyword .classKw => anonymousTail d (← classDefinition d false)
  | .keyword .funcKw => anonymousTail d (← funcDefinition d false)
  | .keyword .importKw =>
    advance true
    let path ← d.term
    let dit ← loadImport d path t.loc
    read (← followPath d (.value (.ditRef dit)))
  | .value _ => read (← operand d)
  | .newName => undeclared t
  | _ => malformedAt "Illegal start of expression" t.loc

end Eval
end Ditlang
