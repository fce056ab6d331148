import Ditlang.Eval.Reading
import Ditlang.Heap.Assign
import Ditlang.Heap.Member
import Ditlang.Heap.Tree

/-!
# Ditlang.Eval.Operand

What a path such as `a.b.c` leads to, and reading and writing there. A path through JSON is only
followed when it is read or written, so a write can make the maps on its way.
-/

namespace Ditlang

/-- Where a path through JSON starts. -/
inductive JsonRoot where
  /-- A slot that may still hold null. -/
  | slot (s : SlotId)
  | map (m : MapId)
deriving DecidableEq, Repr

/-- What an expression path leads to. -/
inductive Operand where
  | value (v : Value)
  | slot (s : SlotId)
  | member (m : Member)
  | json (root : JsonRoot) (keys : List String)
deriving Repr

/-- Why a path cannot be read or written. -/
inductive PathFault where
  | keyOf (key owner : String)
  | noKey (key : String)
  | notSettable (key last owner : String)
  | notAssignable
  | emptyPath
deriving DecidableEq, Repr

def PathFault.message : PathFault → String
  | .keyOf key owner => "Cannot read '" ++ key ++ "' of " ++ owner
  | .noKey key => "'" ++ key ++ "' is not a key of this JSON"
  | .notSettable key last owner => "Cannot set '" ++ key ++ "." ++ last ++ "' on " ++ owner
  | .notAssignable => "Cannot assign to this expression"
  | .emptyPath => "Empty JSON path"

namespace Heap

/-- Follows keys through JSON maps. -/
def readKeys (h : Heap) : Value → List String → Except PathFault Value
  | v, [] => .ok v
  | .jsonRef m, key :: rest =>
    match (h.map m).get? key with
    | some v => h.readKeys v rest
    | none => .error (.noKey key)
  | v, key :: _ => .error (.keyOf key v.typeName)

def rootValue (h : Heap) : JsonRoot → Value
  | .slot s => h.value s
  | .map m => .jsonRef m

def readOperand (h : Heap) : Operand → Except PathFault Value
  | .value v => .ok v
  | .slot s => .ok (h.value s)
  | .member (.slot s) => .ok (h.value s)
  | .member (.inherited s _ _) => .ok (h.value s)
  | .member (.qualifier _ c) => .ok (.classRef c)
  | .json root keys => h.readKeys (h.rootValue root) keys

/-- Whether a slot that holds null becomes a JSON map when a member of it is written. -/
def growsJson (h : Heap) (s : SlotId) : Bool :=
  (h.slot s).generic || (h.slot s).declared == .scalar .json

def putEntry (h : Heap) (m : MapId) (key : String) (v : Value) : Heap :=
  h.setMap m ((h.map m).insert key v)

/-- Writes below a JSON map; maps that are missing on the way, or null, are made. -/
def storeKeys (h : Heap) (m : MapId) (last : String) (v : Value) :
    List String → Except PathFault Heap
  | [] => .ok (h.putEntry m last v)
  | key :: rest =>
    match ((h.map m).get? key).getD .null with
    | .jsonRef inner => h.storeKeys inner last v rest
    | .null =>
      let (inner, h) := h.newMap .empty
      (h.putEntry m key (.jsonRef inner)).storeKeys inner last v rest
    | other => .error (.notSettable key last other.typeName)

end Heap

namespace Eval

/-- Reads what a path leads to; faults are reported at the last token taken. -/
def read (o : Operand) : Eval Value := do
  match (← heap).readOperand o with
  | .ok v => pure v
  | .error f => malformedAt f.message (← curr).loc

/-- The JSON map at the start of a path that is written: a slot without one gets a new one. -/
def rootMap (root : JsonRoot) : Eval MapId := do
  match root with
  | .map m => pure m
  | .slot s =>
    match (← heap).value s with
    | .jsonRef m => pure m
    | _ =>
      let m ← withHeap (·.newMap .empty)
      assignSlot s (.jsonRef m)
      pure m

/-- Writes to what a path leads to. An inherited attribute is copied into the instance first. -/
def store (o : Operand) (v : Value) : Eval Unit := do
  match o with
  | .slot s | .member (.slot s) => assignSlot s v
  | .member (.inherited s i key) =>
    let own ← withHeap (·.materialize i key s)
    assignSlot own v
  | .json root keys =>
    let m ← rootMap root
    match keys.getLast? with
    | none => raise (.critical PathFault.emptyPath.message)
    | some last =>
      match (← heap).storeKeys m last v keys.dropLast with
      | .ok h => setHeap h
      | .error f => raise (.typeMismatch f.message)
  | .value _ | .member (.qualifier _ _) =>
    malformedAt PathFault.notAssignable.message (← curr).loc

end Eval
end Ditlang
