import Ditlang.OrderedMap
import Ditlang.Source.Basic
import Ditlang.Token.Lexer
import Ditlang.Value.Basic

/-!
# Ditlang.Heap

The store of one session: containers, slots, lists and JSON maps, each numbered in the order of
their making and never removed. Names are found in a container, or outward through the scopes
around it.
-/

namespace Ditlang

open Source (Location View)

/-- A named and typed home for one value. -/
structure Slot where
  name : String
  declared : Declared
  generic : Bool
  value : Value
deriving Inhabited, Repr

namespace Slot

/-- A slot as it is declared: it holds null. -/
def declare (name : String) (declared : Declared) : Slot :=
  ⟨name, declared, declared.isGeneric, .null⟩

/-- What a word that names the slot stands for: the kind of its value, or of its type while it
holds null. -/
def kind (s : Slot) : ValueKind :=
  match s.value.kind? with
  | some k => k
  | none => if s.declared.list then .list else s.declared.ty.valueKind

end Slot

/-- A list and the element type it is committed to; a list of `Thing` is untyped. -/
structure ListData where
  elem : TypeSpec
  items : List Value
deriving Inhabited, Repr

/-- An attribute name that can no longer be reached unqualified through one of its owners. -/
structure Conflict where
  loser : ContainerId
  name : String
deriving DecidableEq, Repr

/-- What a class has beside its attributes. -/
structure ClassData where
  parents : List ContainerId := []
  conflicts : List Conflict := []
deriving Inhabited, Repr

structure Param where
  name : String
  declared : Declared
deriving DecidableEq, Repr

/-- The language of a function body: Ditlang itself or a guest Lang. -/
inductive FuncLang where
  | ditlang
  | guest (lang : ContainerId)
deriving DecidableEq, Repr

/-- The functions every dit can call. -/
inductive Builtin where
  | print | str | append | len
deriving DecidableEq, Repr

/-- What a function has beside its body. -/
structure FuncData where
  params : List Param
  /-- The type of the result; none for `void`. -/
  ret : Option Declared
  lang : FuncLang
  /-- The file the body was written to for its guest worker. -/
  guestPath : Option String := none
  native : Option Builtin := none
deriving Repr

inductive ContainerKind where
  | prelude
  | dit
  | cls (data : ClassData)
  | inst (cls : ContainerId)
  | func (data : FuncData)
  | lang
  /-- One activation of a function. -/
  | frame (func : ContainerId)
deriving Repr

/-- The source a container was written as. -/
structure Body where
  path : String
  view : View
  defLoc : Location
  interpreted : Bool
deriving Inhabited

/-- A container: something with named attributes. -/
structure Container where
  name : Option String
  kind : ContainerKind
  attrs : OrderedMap SlotId := .empty
  /-- Names bound to slots that another container owns. -/
  aliases : OrderedMap SlotId := .empty
  /-- The container around this one, where names are looked up next. -/
  scope : Option ContainerId := none
  body : Option Body := none

namespace Container

instance : Inhabited Container := ⟨{ name := none, kind := .prelude }⟩

/-- The name of a container; one without a name is called `anonymous`. -/
def displayName (c : Container) : String :=
  c.name.getD "anonymous"

/-- Own attributes first, then aliases. -/
def find? (c : Container) (name : String) : Option SlotId :=
  (c.attrs.get? name).or (c.aliases.get? name)

def isClass (c : Container) : Bool :=
  match c.kind with
  | .cls _ => true
  | _ => false

end Container

/-- A class with its ancestors, and who defines which attribute name. -/
structure Ancestry where
  /-- The class itself and then its ancestors, depth first, each once. -/
  order : List ContainerId := []
  /-- For each attribute name the classes that define it and are not hidden by a class nearer to
  this one. -/
  definers : OrderedMap (List ContainerId) := .empty
deriving Inhabited, Repr

structure Heap where
  containers : Array Container := #[]
  slots : Array Slot := #[]
  lists : Array ListData := #[]
  maps : Array (OrderedMap Value) := #[]
  /-- Ancestries computed since the class graph last changed. -/
  memo : List (ContainerId × Ancestry) := []
deriving Inhabited

namespace Heap

def empty : Heap := {}

def container (h : Heap) (c : ContainerId) : Container :=
  h.containers.getD c.index default

def slot (h : Heap) (s : SlotId) : Slot :=
  h.slots.getD s.index default

def list (h : Heap) (l : ListId) : ListData :=
  h.lists.getD l.index default

def map (h : Heap) (m : MapId) : OrderedMap Value :=
  h.maps.getD m.index default

def value (h : Heap) (s : SlotId) : Value :=
  (h.slot s).value

def nameOf (h : Heap) (c : ContainerId) : String :=
  (h.container c).displayName

def alloc (h : Heap) (c : Container) : ContainerId × Heap :=
  (⟨h.containers.size⟩, { h with containers := h.containers.push c })

def newSlot (h : Heap) (s : Slot) : SlotId × Heap :=
  (⟨h.slots.size⟩, { h with slots := h.slots.push s })

def newList (h : Heap) (elem : TypeSpec) (items : List Value) : ListId × Heap :=
  (⟨h.lists.size⟩, { h with lists := h.lists.push ⟨elem, items⟩ })

def newMap (h : Heap) (m : OrderedMap Value) : MapId × Heap :=
  (⟨h.maps.size⟩, { h with maps := h.maps.push m })

def setContainer (h : Heap) (c : ContainerId) (new : Container) : Heap :=
  { h with containers := h.containers.setIfInBounds c.index new }

def modifyContainer (h : Heap) (c : ContainerId) (f : Container → Container) : Heap :=
  h.setContainer c (f (h.container c))

def setSlot (h : Heap) (s : SlotId) (new : Slot) : Heap :=
  { h with slots := h.slots.setIfInBounds s.index new }

/-- Puts a value into a slot, whatever its type. -/
def setValue (h : Heap) (s : SlotId) (v : Value) : Heap :=
  h.setSlot s { h.slot s with value := v }

def setList (h : Heap) (l : ListId) (new : ListData) : Heap :=
  { h with lists := h.lists.setIfInBounds l.index new }

def setMap (h : Heap) (m : MapId) (new : OrderedMap Value) : Heap :=
  { h with maps := h.maps.setIfInBounds m.index new }

theorem container_of_size_le {h : Heap} {c : ContainerId} (hc : h.containers.size ≤ c.index) :
    h.container c = default := by
  simp [container, Array.getD, Nat.not_lt.2 hc]

theorem container_alloc (h : Heap) (new : Container) (c : ContainerId) :
    (h.alloc new).2.container c =
      if c.index = h.containers.size then new else h.container c := by
  simp only [alloc, container, Array.getD_eq_getD_getElem?, Array.getElem?_push]
  split <;> rfl

theorem slot_newSlot (h : Heap) (new : Slot) (s : SlotId) :
    (h.newSlot new).2.slot s = if s.index = h.slots.size then new else h.slot s := by
  simp only [newSlot, slot, Array.getD_eq_getD_getElem?, Array.getElem?_push]
  split <;> rfl

theorem list_newList (h : Heap) (elem : TypeSpec) (items : List Value) (l : ListId) :
    (h.newList elem items).2.list l =
      if l.index = h.lists.size then ⟨elem, items⟩ else h.list l := by
  simp only [newList, list, Array.getD_eq_getD_getElem?, Array.getElem?_push]
  split <;> rfl

theorem map_newMap (h : Heap) (new : OrderedMap Value) (m : MapId) :
    (h.newMap new).2.map m = if m.index = h.maps.size then new else h.map m := by
  simp only [newMap, map, Array.getD_eq_getD_getElem?, Array.getElem?_push]
  split <;> rfl

theorem container_setContainer (h : Heap) (c d : ContainerId) (new : Container)
    (hc : c.index < h.containers.size) :
    (h.setContainer c new).container d = if c.index = d.index then new else h.container d := by
  simp only [setContainer, container, Array.getD_eq_getD_getElem?, Array.getElem?_setIfInBounds]
  split
  · simp
  · rfl

theorem slot_setSlot (h : Heap) (s t : SlotId) (new : Slot) (hs : s.index < h.slots.size) :
    (h.setSlot s new).slot t = if s.index = t.index then new else h.slot t := by
  simp only [setSlot, slot, Array.getD_eq_getD_getElem?, Array.getElem?_setIfInBounds]
  split
  · simp
  · rfl

theorem list_setList (h : Heap) (l k : ListId) (new : ListData) (hl : l.index < h.lists.size) :
    (h.setList l new).list k = if l.index = k.index then new else h.list k := by
  simp only [setList, list, Array.getD_eq_getD_getElem?, Array.getElem?_setIfInBounds]
  split
  · simp
  · rfl

theorem map_setMap (h : Heap) (m k : MapId) (new : OrderedMap Value)
    (hm : m.index < h.maps.size) :
    (h.setMap m new).map k = if m.index = k.index then new else h.map k := by
  simp only [setMap, map, Array.getD_eq_getD_getElem?, Array.getElem?_setIfInBounds]
  split
  · simp
  · rfl

@[simp] theorem declared_setValue (h : Heap) (s t : SlotId) (v : Value) :
    ((h.setValue s v).slot t).declared = (h.slot t).declared := by
  by_cases hs : s.index < h.slots.size
  · rw [setValue, slot_setSlot h s t _ hs]
    split
    · rename_i hst; rw [show s = t from SlotId.ext hst]
    · rfl
  · simp only [setValue, setSlot, slot, Array.setIfInBounds_eq_of_size_le (Nat.not_lt.1 hs)]

def findLocal? (h : Heap) (c : ContainerId) (name : String) : Option SlotId :=
  (h.container c).find? name

/-- Finds a name in a container or in one of the next scopes around it. -/
def findWithin? (h : Heap) : Nat → ContainerId → String → Option SlotId
  | 0, _, _ => none
  | n + 1, c, name =>
    match h.findLocal? c name with
    | some s => some s
    | none =>
      match (h.container c).scope with
      | some outer => h.findWithin? n outer name
      | none => none

/-- Finds a name in a container or in the scopes around it, the nearest first. A scope is older
than what it surrounds, so there are no more of them than containers before this one. -/
def findInScope? (h : Heap) (c : ContainerId) (name : String) : Option SlotId :=
  h.findWithin? (c.index + 1) c name

def resolver (h : Heap) (c : ContainerId) : Resolver := fun name =>
  (h.findInScope? c name).map fun s => ⟨s, (h.slot s).kind⟩

/-- Adds an own attribute to a container, whatever it is. -/
def attach (h : Heap) (owner : ContainerId) (name : String) (s : SlotId) : Heap :=
  h.modifyContainer owner fun c => { c with attrs := c.attrs.insert name s }

def forgetAncestries (h : Heap) : Heap :=
  { h with memo := [] }

def parents (h : Heap) (c : ContainerId) : List ContainerId :=
  match (h.container c).kind with
  | .cls data => data.parents
  | _ => []

def conflicts (h : Heap) (c : ContainerId) : List Conflict :=
  match (h.container c).kind with
  | .cls data => data.conflicts
  | _ => []

def classOf? (h : Heap) (c : ContainerId) : Option ContainerId :=
  match (h.container c).kind with
  | .inst cls => some cls
  | _ => none

/-- The class whose attributes a value has: a class itself, or the class of an instance. -/
def classOfValue? (h : Heap) : Value → Option ContainerId
  | .classRef c => some c
  | .instanceRef i => h.classOf? i
  | _ => none

end Heap
end Ditlang
