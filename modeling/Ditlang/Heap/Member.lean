import Ditlang.Heap.Classes

/-!
# Ditlang.Heap.Member

The members of values. An instance has no attributes of its own at first: it reads those of its
class, and the first write to one of them copies the slot into the instance. An attribute of a
named ancestor is kept under the qualified name.
-/

namespace Ditlang

/-- Where a member of a value was found. -/
inductive Member where
  | slot (s : SlotId)
  /-- Found on the class of an instance; a write copies it into the instance under `key`. -/
  | inherited (s : SlotId) (inst : ContainerId) (key : String)
  /-- The name of an ancestor, which qualifies the next name. -/
  | qualifier (base : Value) (cls : ContainerId)
deriving DecidableEq, Repr

namespace Heap

/-- A new instance of a class, named like the class. -/
def newInstance (h : Heap) (cls : ContainerId) : ContainerId × Heap :=
  h.alloc { name := (h.container cls).name, kind := .inst cls }

/-- The name under which an instance keeps an attribute. -/
def memberKey (h : Heap) (qualifier : Option ContainerId) (name : String) : String :=
  match qualifier with
  | some c => h.nameOf c ++ "." ++ name
  | none => name

def plainMember (h : Heap) (base : Value) (c : ContainerId) (name : String) :
    Except HeapFault Member :=
  match h.findLocal? c name with
  | some s => .ok (.slot s)
  | none => .error (.noAttribute name base.typeName (h.nameOf c))

def instanceMember (h : Heap) (i : ContainerId) (qualifier : Option ContainerId) (name : String) :
    Except HeapFault Member :=
  let key := h.memberKey qualifier name
  match (h.container i).attrs.get? key with
  | some s => .ok (.slot s)
  | none =>
    match h.classOf? i with
    | none => .error (.classless (h.nameOf i))
    | some cls => do
      match ← h.classMember (qualifier.getD cls) name with
      | .slot s => .ok (.inherited s i key)
      | .qualifier a => .ok (.qualifier (.instanceRef i) a)
      | .missing => .error (.noInstanceAttribute name (h.nameOf cls))

def memberOfClass (h : Heap) (c : ContainerId) (qualifier : Option ContainerId) (name : String) :
    Except HeapFault Member := do
  let target := qualifier.getD c
  match ← h.classMember target name with
  | .slot s => .ok (.slot s)
  | .qualifier a => .ok (.qualifier (.classRef c) a)
  | .missing => .error (.noClassAttribute name (h.nameOf target))

/-- Looks a name up on a value. After the name of an ancestor the lookup goes to that class. -/
def member (h : Heap) (base : Value) (qualifier : Option ContainerId) (name : String) :
    Except HeapFault Member :=
  match base with
  | .ditRef c | .langRef c | .funcRef c => h.plainMember base c name
  | .classRef c => h.memberOfClass c qualifier name
  | .instanceRef i => h.instanceMember i qualifier name
  | .null => .error (.memberOfNull name)
  | _ => .error (.memberless base.typeName name)

/-- The class on which a member of a value is looked up, if it is not one that an instance keeps
itself. -/
def lookupClass? (h : Heap) (base : Value) (qualifier : Option ContainerId) (name : String) :
    Option ContainerId :=
  match base with
  | .classRef c => some (qualifier.getD c)
  | .instanceRef i =>
    if (h.container i).attrs.contains (h.memberKey qualifier name) then none
    else (h.classOf? i).map qualifier.getD
  | _ => none

/-- A lookup on a class asks about the class itself, if it takes the ancestry into account. -/
def lookupAsks (h : Heap) (c : ContainerId) (name : String) : List ContainerId :=
  if h.looksFurther c name then [c] else []

def warmLookup (h : Heap) (c : ContainerId) (name : String) : Heap :=
  h.warmAll (h.lookupAsks c name)

/-- Keeps the ancestry that the lookup of a member takes into account. -/
def warmMember (h : Heap) (base : Value) (qualifier : Option ContainerId) (name : String) : Heap :=
  match h.lookupClass? base qualifier name with
  | some c => h.warmLookup c name
  | none => h

/-- Gives an instance a slot of its own for an inherited attribute, a copy of the one it
inherits. -/
def materialize (h : Heap) (inst : ContainerId) (key : String) (template : SlotId) :
    SlotId × Heap :=
  match (h.container inst).attrs.get? key with
  | some s => (s, h)
  | none =>
    let (s, h) := h.newSlot { h.slot template with name := key }
    (s, h.attach inst key s)

end Heap
end Ditlang
