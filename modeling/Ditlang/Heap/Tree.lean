import Ditlang.Heap.Typing
import Ditlang.Json.Writer
import Ditlang.Number.Format

/-!
# Ditlang.Heap.Tree

Values with everything they refer to. Unfolding a value down to some depth gives a tree, and the
text of a value, its JSON document and the equality of values are functions of trees. A JSON map
may contain itself; its unfolding is cut at every depth.
-/

namespace Ditlang

inductive Tree where
  | null
  | str (s : String)
  | bool (b : Bool)
  | num (x : Number)
  | list (elem : TypeSpec) (items : List Tree)
  | json (entries : List (String × Tree))
  /-- A container, as the value that refers to it. -/
  | ref (v : Value)
  /-- What lies deeper than the unfolding went. -/
  | cut
deriving Inhabited, Repr

namespace Heap

/-- Unfolds a value; what lies `n` levels down is cut. -/
def unfold (h : Heap) : Nat → Value → Tree
  | 0, _ => .cut
  | _ + 1, .null => .null
  | _ + 1, .str s => .str s
  | _ + 1, .bool b => .bool b
  | _ + 1, .num x => .num x
  | n + 1, .listRef l => .list (h.list l).elem ((h.list l).items.map (h.unfold n))
  | n + 1, .jsonRef m => .json ((h.map m).entries.map fun (k, v) => (k, h.unfold n v))
  | _ + 1, .classRef c => .ref (.classRef c)
  | _ + 1, .instanceRef c => .ref (.instanceRef c)
  | _ + 1, .funcRef c => .ref (.funcRef c)
  | _ + 1, .ditRef c => .ref (.ditRef c)
  | _ + 1, .langRef c => .ref (.langRef c)

/-- Unfolds a value as deep as one can go that does not contain itself. -/
def tree (h : Heap) (v : Value) : Tree :=
  h.unfold (h.lists.size + h.maps.size + 1) v

def refText (h : Heap) (v : Value) : String :=
  match v with
  | .classRef c => "<class " ++ h.nameOf c ++ ">"
  | .instanceRef _ => "<" ++ h.valueLabel v ++ " instance>"
  | .funcRef c => "<func " ++ h.nameOf c ++ ">"
  | .ditRef c => "<dit " ++ h.nameOf c ++ ">"
  | .langRef c => "<lang " ++ h.nameOf c ++ ">"
  | _ => ""

end Heap

namespace Tree

mutual

/-- Whether nothing was cut. -/
def complete : Tree → Bool
  | .list _ items => completeAll items
  | .json entries => completeEntries entries
  | .cut => false
  | _ => true

def completeAll : List Tree → Bool
  | [] => true
  | t :: rest => t.complete && completeAll rest

def completeEntries : List (String × Tree) → Bool
  | [] => true
  | (_, t) :: rest => t.complete && completeEntries rest

end

mutual

/-- The text of a value inside another one: strings are in quotes. -/
def renderNested (h : Heap) : Tree → String
  | .null => "null"
  | .str s => "\"" ++ s ++ "\""
  | .bool b => if b then "true" else "false"
  | .num x => x.display
  | .list _ items => "[" ++ ", ".intercalate (renderItems h items) ++ "]"
  | .json entries => "\x7b" ++ ", ".intercalate (renderEntries h entries) ++ "\x7d"
  | .ref v => h.refText v
  | .cut => ""

def renderItems (h : Heap) : List Tree → List String
  | [] => []
  | t :: rest => t.renderNested h :: renderItems h rest

def renderEntries (h : Heap) : List (String × Tree) → List String
  | [] => []
  | (k, t) :: rest => ("\"" ++ k ++ "\": " ++ t.renderNested h) :: renderEntries h rest

end

/-- The text of a value: a string is its own text. -/
def render (h : Heap) (t : Tree) : String :=
  match t with
  | .str s => s
  | _ => t.renderNested h

mutual

/-- The JSON document of a value: containers become their texts, and a number that is not finite
becomes null. -/
def toJson (h : Heap) : Tree → Json
  | .null => .null
  | .str s => .str s
  | .bool b => .bool b
  | .num x => if x.isFinite then .real x else .null
  | .list _ items => .arr (itemsToJson h items)
  | .json entries => .object (entriesToJson h entries)
  | .ref v => .str (h.refText v)
  | .cut => .null

def itemsToJson (h : Heap) : List Tree → List Json
  | [] => []
  | t :: rest => t.toJson h :: itemsToJson h rest

def entriesToJson (h : Heap) : List (String × Tree) → List (String × Json)
  | [] => []
  | (k, t) :: rest => (k, t.toJson h) :: entriesToJson h rest

end

mutual

/-- Equality of values: lists by element type and items in order, maps by their keys in any
order, numbers as the language compares them, containers by identity. -/
def same : Tree → Tree → Bool
  | .null, .null => true
  | .str a, .str b => a == b
  | .bool a, .bool b => a == b
  | .num a, .num b => a.same b
  | .list e as, .list f bs => e == f && sameItems as bs
  | .json as, .json bs => as.length == bs.length && sameEntries as bs
  | .ref a, .ref b => a == b
  | _, _ => false

def sameItems : List Tree → List Tree → Bool
  | [], [] => true
  | a :: as, b :: bs => a.same b && sameItems as bs
  | _, _ => false

/-- Whether every entry has an equal one under its key in a second map. -/
def sameEntries : List (String × Tree) → List (String × Tree) → Bool
  | [], _ => true
  | (k, a) :: rest, bs =>
    (match bs.lookup k with
    | some b => a.same b
    | none => false) && sameEntries rest bs

end

end Tree

namespace Heap

/-- The text of a value; none for one that contains itself. -/
def render? (h : Heap) (v : Value) : Option String :=
  let t := h.tree v
  if t.complete then some (t.render h) else none

/-- The JSON document of a value; none for one that contains itself. -/
def toJson? (h : Heap) (v : Value) : Option Json :=
  let t := h.tree v
  if t.complete then some (t.toJson h) else none

mutual

/-- The value of a JSON document. Arrays become untyped lists and objects JSON maps, the parts
before the whole. -/
def ofJson (h : Heap) : Json → Value × Heap
  | .null => (.null, h)
  | .bool b => (.bool b, h)
  | .int n => (.num (.ofInt n), h)
  | .real x => (.num x, h)
  | .str s => (.str s, h)
  | .arr items =>
    let (values, h) := h.ofJsonItems items
    let (l, h) := h.newList .thing values
    (.listRef l, h)
  | .obj fields =>
    let (entries, h) := h.ofJsonFields fields
    let (m, h) := h.newMap (.ofList entries)
    (.jsonRef m, h)

def ofJsonItems (h : Heap) : List Json → List Value × Heap
  | [] => ([], h)
  | item :: rest =>
    let (v, h) := h.ofJson item
    let (vs, h) := h.ofJsonItems rest
    (v :: vs, h)

def ofJsonFields (h : Heap) : List (String × Json) → List (String × Value) × Heap
  | [] => ([], h)
  | (key, field) :: rest =>
    let (v, h) := h.ofJson field
    let (vs, h) := h.ofJsonFields rest
    ((key, v) :: vs, h)

end

end Heap
end Ditlang
