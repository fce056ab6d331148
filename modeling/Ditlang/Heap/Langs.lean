import Ditlang.Heap.Basic
import Ditlang.Heap.Fault
import Ditlang.Number.Format

/-!
# Ditlang.Heap.Langs

Langs: named sets of properties that say how guest functions are run. Two Langs of one name are
merged; a property that both have comes from the one with the higher priority, and from the later
one when the priorities are equal.
-/

namespace Ditlang
namespace Heap

/-- The priority of a Lang: its number `priority`, or zero. -/
def priority (h : Heap) (lang : ContainerId) : Number :=
  match (h.findLocal? lang "priority").map h.value with
  | some (.num x) => x
  | _ => .zero

/-- The slot from which a merged Lang takes a property. -/
def mergeChoice (rightWins : Bool) (left right : Option SlotId) : Option SlotId :=
  match left, right with
  | some l, some r => some (if rightWins then r else l)
  | some l, none => some l
  | none, r => r

def copySlots (h : Heap) (chosen : List (String × SlotId)) : OrderedMap SlotId × Heap :=
  chosen.foldl
    (fun (attrs, h) (name, s) =>
      let (copy, h) := h.newSlot (h.slot s)
      (attrs.insert name copy, h))
    (.empty, h)

/-- The properties of a merged Lang and the slots they are copied from. -/
def mergeSources (h : Heap) (left right : ContainerId) : List (String × SlotId) :=
  let l := (h.container left).attrs
  let r := (h.container right).attrs
  let rightWins := (h.priority left).le (h.priority right)
  let names := l.keys ++ r.keys.filter fun name => !l.contains name
  names.filterMap fun name =>
    (mergeChoice rightWins (l.get? name) (r.get? name)).map (name, ·)

/-- Merges two Langs into a new one with the name and the scope of the first. -/
def mergeLangs (h : Heap) (left right : ContainerId) : ContainerId × Heap :=
  let (attrs, h) := h.copySlots (h.mergeSources left right)
  let c := h.container left
  h.alloc { name := c.name, kind := .lang, attrs, scope := c.scope }

/-- A property of a Lang as a text: a string, the text of a function body, or a number. -/
def langProp? (h : Heap) (lang : ContainerId) (prop : String) : Option String :=
  match (h.findLocal? lang prop).map h.value with
  | some (.str s) => some s
  | some (.funcRef f) => (h.container f).body.map fun body => body.view.text
  | some (.num x) => some x.display
  | _ => none

def langProp (h : Heap) (lang : ContainerId) (prop : String) : Except HeapFault String :=
  match h.langProp? lang prop with
  | some s => .ok s
  | none => .error (.missingProp (h.nameOf lang) prop)

end Heap
end Ditlang
