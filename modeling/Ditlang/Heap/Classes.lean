import Ditlang.Heap.Ancestry
import Ditlang.Heap.Fault

/-!
# Ditlang.Heap.Classes

Declaring attributes, extending classes and looking attributes up through the classes. When a
name is reached through two classes that define it, the class records a conflict for each of
them; the name can then only be reached qualified by one of the classes.
-/

namespace Ditlang

inductive ClassMember where
  | slot (s : SlotId)
  /-- The name of an ancestor, by which the next name is qualified. -/
  | qualifier (c : ContainerId)
  | missing
deriving DecidableEq, Repr

namespace Heap

def addConflicts (h : Heap) (c : ContainerId) (found : List Conflict) : Heap :=
  h.modifyContainer c fun container =>
    match container.kind with
    | .cls data =>
      { container with kind := .cls { data with conflicts := union data.conflicts found } }
    | _ => container

/-- The conflicts that arise when a class declares a name itself: it hides that name of every
ancestor. -/
def overrideConflicts (h : Heap) (c : ContainerId) (name : String) : List Conflict :=
  (h.parents c).foldl
    (fun found parent =>
      union found
        ((((h.ancestry parent).definers.get? name).getD []).map fun loser => ⟨loser, name⟩))
    []

/-- Declares a name in a container, with a slot that holds null. -/
def declare (h : Heap) (owner : ContainerId) (name : String) (d : Declared) :
    Except HeapFault (SlotId × Heap) :=
  if (h.findLocal? owner name).isSome then
    .error (.alreadyDeclared name)
  else
    let (s, h) := h.newSlot (.declare name d)
    if (h.container owner).isClass then
      let h := h.addConflicts owner (h.overrideConflicts owner name)
      .ok (s, (h.attach owner name s).forgetAncestries)
    else
      .ok (s, h.attach owner name s)

/-- Binds a name in a container to a slot that another container owns. -/
def insertAlias (h : Heap) (c : ContainerId) (name : String) (s : SlotId) :
    Except HeapFault Heap :=
  if (h.findLocal? c name).isSome then
    .error (.alreadyDeclared name)
  else
    .ok (h.modifyContainer c fun container =>
      { container with aliases := container.aliases.insert name s })

/-- Who defines which name among the parents of a class. -/
def parentDefiners (h : Heap) (c : ContainerId) : OrderedMap (List ContainerId) :=
  (h.parents c).foldl
    (fun table parent =>
      (h.ancestry parent).definers.entries.foldl
        (fun table (name, defs) => Ancestry.addDefiners table name defs) table)
    .empty

/-- The conflicts that arise from one name of a new parent: when the class owns the name, or when
another parent brings it too and more than one class defines it. -/
def conflictsOfName (h : Heap) (c : ContainerId) (existing : OrderedMap (List ContainerId))
    (name : String) (defs : List ContainerId) : List Conflict :=
  let all := union ((existing.get? name).getD []) defs
  if (h.container c).attrs.contains name || (existing.contains name && 1 < all.length) then
    all.map fun loser => ⟨loser, name⟩
  else
    []

/-- The conflicts of a new parent that stay open in the class: neither of the two owns the
name. -/
def inheritedConflicts (h : Heap) (c parent : ContainerId) : List Conflict :=
  (h.conflicts parent).filter fun conflict =>
    !(h.container parent).attrs.contains conflict.name
      && !(h.container c).attrs.contains conflict.name

/-- Makes `parent` the last parent of a class. -/
def addParent (h : Heap) (c parent : ContainerId) : Except HeapFault Heap :=
  if !(h.container parent).isClass then
    .error (.extendsNonClass (h.nameOf c))
  else if h.isSubclass parent c then
    .error (.recursiveExtension (h.nameOf c))
  else if (h.parents c).contains parent then
    .error (.alreadyExtends (h.nameOf c) (h.nameOf parent))
  else
    let existing := h.parentDefiners c
    let found := (h.ancestry parent).definers.entries.flatMap fun (name, defs) =>
      h.conflictsOfName c existing name defs
    let h := h.addConflicts c (found ++ h.inheritedConflicts c parent)
    let h := h.modifyContainer c fun container =>
      match container.kind with
      | .cls data =>
        { container with kind := .cls { data with parents := data.parents ++ [parent] } }
      | _ => container
    .ok h.forgetAncestries

/-- Whether looking a name up on a class goes on to its ancestors: it neither owns the name nor has
a conflict about it. -/
def looksFurther (h : Heap) (c : ContainerId) (name : String) : Bool :=
  !(h.container c).attrs.contains name && (h.conflicts c).all (·.name != name)

/-- Looks a name up on a class: its own attribute, else one that it inherits without ambiguity,
else the ancestor of that name. -/
def classMember (h : Heap) (c : ContainerId) (name : String) : Except HeapFault ClassMember :=
  match (h.container c).attrs.get? name with
  | some s => .ok (.slot s)
  | none =>
    let losers := (h.conflicts c).filter (·.name == name)
    if losers ≠ [] then
      .error (.ambiguous name (h.nameOf c) (losers.map fun conflict => h.nameOf conflict.loser))
    else
      let ancestry := h.ancestry c
      let inherited := do
        let definer ← ((ancestry.definers.get? name).getD []).head?
        (h.container definer).attrs.get? name
      match inherited with
      | some s => .ok (.slot s)
      | none =>
        match ancestry.order.tail.find? fun a => (h.container a).name == some name with
        | some a => .ok (.qualifier a)
        | none => .ok .missing

end Heap
end Ditlang
