import Ditlang.Heap.Ancestry
import Ditlang.Heap.Fault

/-!
# Ditlang.Heap.Typing

Which values may live where. Null fits everywhere; a `Thing` slot takes every value; lists are
checked through every level of nesting. A list literal is untyped, and commits to the element
type of the slot it is assigned to: the slot then holds a list of its own. Beside each check stands
the list of the classes that it asks about, whose ancestries are kept.
-/

namespace Ditlang
namespace Heap

/-- The name of a type; a class type goes by the name of its class. -/
def typeLabel (h : Heap) : TypeSpec → String
  | .thing => "Thing"
  | .str => "Str"
  | .bool => "Bool"
  | .num => "Num"
  | .json => "JSON"
  | .cls => "Class"
  | .inst => "Instance"
  | .func => "Func"
  | .dit => "Dit"
  | .lang => "Lang"
  | .of c => h.nameOf c

def declaredLabel (h : Heap) (d : Declared) : String :=
  if d.list then "listOf " ++ h.typeLabel d.ty else h.typeLabel d.ty

/-- The variant of a value, or the class of an instance. -/
def valueLabel (h : Heap) (v : Value) : String :=
  match v with
  | .instanceRef i =>
    match h.classOf? i with
    | some c => h.nameOf c
    | none => "Instance"
  | _ => v.typeName

/-- Whether a value that is neither null nor a list is of a type. -/
def scalarFits (h : Heap) (v : Value) (ty : TypeSpec) : Bool :=
  match ty, v with
  | .thing, _ => true
  | .str, .str _ | .bool, .bool _ | .num, .num _ | .json, .jsonRef _ | .cls, .classRef _
  | .inst, .instanceRef _ | .func, .funcRef _ | .dit, .ditRef _ | .lang, .langRef _ => true
  | .of c, .instanceRef i =>
    match h.classOf? i with
    | some own => h.isSubclass own c
    | none => false
  | _, _ => false

/-- Whether a list committed to `have_` may stand where elements of `want` are expected. -/
def elemFits (h : Heap) (have_ want : TypeSpec) : Bool :=
  match have_, want with
  | .of sub, .of sup => h.isSubclass sub sup
  | .of _, .inst => true
  | _, _ => have_ == want

/-- What keeps a list from having elements of type `elem`, looking at most `n` levels deep. Nested
lists are allowed at any depth and their leaves are held to `elem`. -/
def listMismatch? (h : Heap) (elem : TypeSpec) : Nat → ListId → Option Mismatch
  | 0, _ => none
  | n + 1, l =>
    let data := h.list l
    if elem = .thing then
      none
    else if data.elem ≠ .thing ∧ !h.elemFits data.elem elem then
      some (.element (h.typeLabel elem) (h.typeLabel data.elem))
    else
      data.items.findSome? fun item =>
        match item with
        | .null => none
        | .listRef inner => h.listMismatch? elem n inner
        | _ =>
          if h.scalarFits item elem then none
          else some (.element (h.typeLabel elem) (h.valueLabel item))

/-- What keeps a list from having elements of type `elem`. Lists do not contain themselves, so
there are no more levels than lists. -/
def checkList (h : Heap) (l : ListId) (elem : TypeSpec) : Option Mismatch :=
  h.listMismatch? elem (h.lists.size + 1) l

/-- What keeps a value out of a slot declared as `d`; nothing if it may live there. -/
def checkValue (h : Heap) (v : Value) (d : Declared) : Option Mismatch :=
  if v.isNull || d.isGeneric then
    none
  else
    match v, d.list with
    | .listRef l, true => h.checkList l d.ty
    | .listRef _, false => some (.value (h.declaredLabel d) (h.valueLabel v))
    | _, true => some (.value (h.declaredLabel d) (h.valueLabel v))
    | _, false =>
      if h.scalarFits v d.ty then none
      else some (.value (h.declaredLabel d) (h.valueLabel v))

/-- The class whose ancestry tells whether it is a subclass of another one; none has to be asked
about the class itself. -/
def asksSubclass (c ancestor : ContainerId) : List ContainerId :=
  if c == ancestor then [] else [c]

/-- The classes whose ancestries tell whether a value is of a type. -/
def scalarAsks (h : Heap) (v : Value) (ty : TypeSpec) : List ContainerId :=
  match ty, v with
  | .of c, .instanceRef i =>
    match h.classOf? i with
    | some own => asksSubclass own c
    | none => []
  | _, _ => []

/-- The classes whose ancestries tell whether one element type may stand for another. -/
def elemAsks : TypeSpec → TypeSpec → List ContainerId
  | .of sub, .of sup => asksSubclass sub sup
  | _, _ => []

/-- The elements of a list up to the first one that satisfies `p`, and that one. -/
def upToFirst {α : Type} (p : α → Bool) : List α → List α
  | [] => []
  | x :: xs => if p x then [x] else x :: upToFirst p xs

/-- The classes whose ancestries are asked for while a list is checked, at most `n` levels deep. The
check ends at the first mismatch. -/
def listAsks (h : Heap) (elem : TypeSpec) : Nat → ListId → List ContainerId
  | 0, _ => []
  | n + 1, l =>
    let data := h.list l
    if elem = .thing then
      []
    else
      let own := if data.elem = .thing then [] else elemAsks data.elem elem
      if data.elem ≠ .thing ∧ !h.elemFits data.elem elem then
        own
      else
        let refused (item : Value) : Bool :=
          match item with
          | .null => false
          | .listRef inner => (h.listMismatch? elem n inner).isSome
          | _ => !h.scalarFits item elem
        own ++ (upToFirst refused data.items).flatMap fun item =>
          match item with
          | .listRef inner => h.listAsks elem n inner
          | _ => h.scalarAsks item elem

/-- The classes whose ancestries are asked for while a value is checked against a type. -/
def checkAsks (h : Heap) (v : Value) (d : Declared) : List ContainerId :=
  if d.isGeneric then
    []
  else
    match v, d.list with
    | .listRef l, true => h.listAsks d.ty (h.lists.size + 1) l
    | .listRef _, false => []
    | _, true => []
    | _, false => h.scalarAsks v d.ty

/-- Keeps the ancestries that a check of a value against a type asks for. -/
def warmCheck (h : Heap) (v : Value) (d : Declared) : Heap :=
  h.warmAll (h.checkAsks v d)

/-- Whether `needle` can be reached from a list through list items, at most `n` steps away. -/
def reachesWithin (h : Heap) (needle : ListId) : Nat → ListId → Bool
  | 0, _ => false
  | n + 1, l =>
    (h.list l).items.any fun item =>
      match item with
      | .listRef inner => inner == needle || h.reachesWithin needle n inner
      | _ => false

/-- Whether a list contains `needle` at some depth. -/
def listContains (h : Heap) (l needle : ListId) : Bool :=
  h.reachesWithin needle (h.lists.size + 1) l

/-- Whether a value may become an element of a list committed to `elem`. -/
def elementFits (h : Heap) (v : Value) (elem : TypeSpec) : Bool :=
  match v with
  | .null => true
  | .listRef inner => (h.checkList inner elem).isNone
  | _ => h.scalarFits v elem

/-- Whether appending a value to a list would put the list inside itself. -/
def closesCycle (h : Heap) (l : ListId) : Value → Bool
  | .listRef inner => inner == l || h.listContains inner l
  | _ => false

/-- The classes whose ancestries are asked for when a value is added to a list. -/
def appendAsks (h : Heap) (l : ListId) (v : Value) : List ContainerId :=
  let elem := (h.list l).elem
  if h.closesCycle l v then []
  else
    match v with
    | .listRef inner => h.listAsks elem (h.lists.size + 1) inner
    | _ => h.scalarAsks v elem

def warmAppend (h : Heap) (l : ListId) (v : Value) : Heap :=
  h.warmAll (h.appendAsks l v)

def append (h : Heap) (l : ListId) (v : Value) : Except HeapFault Heap :=
  let data := h.list l
  if h.closesCycle l v then
    .error .selfContaining
  else if data.elem ≠ .thing ∧ !h.elementFits v data.elem then
    .error (.cannotContain (h.typeLabel data.elem) (h.valueLabel v))
  else
    .ok (h.setList l { data with items := data.items ++ [v] })

end Heap
end Ditlang
