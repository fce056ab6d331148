import Ditlang.Heap.Langs
import Ditlang.Heap.Typing

/-!
# Ditlang.Heap.Assign

Assigning to slots. A value is checked against the declared type first, and a refused assignment
changes nothing. Assigning a Lang over another one merges the two; assigning an untyped list to a
slot with an element type gives the slot a list of its own, committed to that type.
-/

namespace Ditlang
namespace Heap

/-- The value a slot takes for one that fits it: two Langs are merged, and an untyped list commits
to the element type. -/
def settle (h : Heap) (d : Declared) (old new : Value) : Value × Heap :=
  match old, new with
  | .langRef a, .langRef b =>
    if d.list || a == b then
      (new, h)
    else
      let (merged, h) := h.mergeLangs a b
      (.langRef merged, h)
  | _, .listRef l =>
    if d.list && d.ty ≠ .thing && (h.list l).elem = .thing then
      let (own, h) := h.newList d.ty (h.list l).items
      (.listRef own, h)
    else
      (new, h)
  | _, _ => (new, h)

/-- The classes whose ancestries are asked for when a value is assigned to a slot. -/
def assignAsks (h : Heap) (s : SlotId) (v : Value) : List ContainerId :=
  let target := h.slot s
  if target.generic then [] else h.checkAsks v target.declared

def warmAssign (h : Heap) (s : SlotId) (v : Value) : Heap :=
  h.warmAll (h.assignAsks s v)

def assign (h : Heap) (s : SlotId) (v : Value) : Except HeapFault Heap :=
  let target := h.slot s
  if target.generic then
    .ok (h.setValue s v)
  else
    match h.checkValue v target.declared with
    | some m => .error (.mismatch m)
    | none =>
      let (v, h) := h.settle target.declared target.value v
      .ok (h.setValue s v)

end Heap
end Ditlang
